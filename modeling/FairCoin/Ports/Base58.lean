import FairCoin.Verified.Radix
import FairCoin.Ports.Serialize

/-!
# Base58 (`base58.cpp`)

`EncodeBase58` writes each leading zero byte as `1` and converts the other
bytes into a buffer of `n * 138 / 100 + 1` base-58 digits, one pass
`b58 = b58 * 256 + ch` per byte; `DecodeBase58` reads the leading `1`s as
zero bytes and converts the other characters into `n * 733 / 1000 + 1`
bytes, one pass `b256 = b256 * 58 + ch` per character. Each pass ends with
`assert(carry == 0)`, and both count the leading run in an `int`.
`EncodeBase58Check` appends the first four bytes of the double SHA-256 of the
payload, a parameter here, and `DecodeBase58Check` checks them.

A C string is its characters before the terminating NUL.

## Main results

* `EncodeBase58_eq`, `DecodeBase58_eq` — what the two functions return,
  through `Nat.digits`.
* `DecodeBase58_EncodeBase58`, `EncodeBase58_DecodeBase58` — the round trips.
* `EncodeBase58_ne_assert`, `DecodeBase58_ne_assert` — `assert(carry == 0)`
  never fires.
* `base58_roundtrip` — the round trips, of the checked form too, for fewer
  than `2 ^ 31` leading zeros; `base58_int_overflow` — at `2 ^ 31` leading
  zeros the `int` count overflows.
-/

namespace FairCoin.Ports.Base58

open FairCoin.Verified.Radix FairCoin.Ports.Primitives FairCoin.Ports.Serialize

/-- What ends the program instead of a return: a failed `assert(carry == 0)`,
or an `int` counter incremented past `INT_MAX`. -/
inductive Abort
  | assertCarry
  | intOverflow
  deriving DecidableEq, Repr

/-- `pszBase58`: all alphanumeric characters except `0`, `I`, `O` and `l`. -/
def pszBase58 : List Char :=
  ['1', '2', '3', '4', '5', '6', '7', '8', '9', 'A', 'B', 'C', 'D', 'E', 'F', 'G', 'H', 'J', 'K',
   'L', 'M', 'N', 'P', 'Q', 'R', 'S', 'T', 'U', 'V', 'W', 'X', 'Y', 'Z', 'a', 'b', 'c', 'd', 'e',
   'f', 'g', 'h', 'i', 'j', 'k', 'm', 'n', 'o', 'p', 'q', 'r', 's', 't', 'u', 'v', 'w', 'x', 'y', 'z']

/-- `isspace` in the C locale. -/
def isspace (c : Char) : Bool :=
  c == ' ' || c == '\t' || c == '\n' || c == '\x0b' || c == '\x0c' || c == '\r'

/-- The loops `while (...) { zeroes++; ... }` over the leading run that
satisfies `p`, with `int zeroes`: its length and what follows. -/
def countLeading {α : Type} (p : α → Bool) : Nat → List α → Except Abort (Nat × List α)
  | zeroes, [] => pure (zeroes, [])
  | zeroes, a :: as =>
    if p a then
      if zeroes = 2 ^ 31 - 1 then throw .intOverflow else countLeading p (zeroes + 1) as
    else pure (zeroes, a :: as)

/-- The inner loop `carry += mul * (*it); *it = carry % base; carry /= base`
over the buffer from its end, from `carry = digit`, then
`assert(carry == 0)`. -/
def applyDigit (mul base : Nat) (buf : List Nat) (digit : Nat) : Except Abort (List Nat) :=
  if (mulAddBE mul base buf digit).2 = 0 then pure (mulAddBE mul base buf digit).1
  else throw .assertCarry

/-- The loop over the bytes of `EncodeBase58`: `b58 = b58 * 256 + ch`. -/
def encodeBytes : List Nat → List UInt8 → Except Abort (List Nat)
  | b58, [] => pure b58
  | b58, ch :: rest => do
    let b58 ← applyDigit 256 58 b58 ch.toNat
    encodeBytes b58 rest

/-- `EncodeBase58`. -/
def EncodeBase58 (v : List UInt8) : Except Abort (List Char) := do
  let (zeroes, rest) ← countLeading (· == 0) 0 v
  let b58 ← encodeBytes (List.replicate (rest.length * 138 / 100 + 1) 0) rest
  pure (List.replicate zeroes '1' ++ (b58.dropWhile (· == 0)).map fun d => pszBase58.getD d '1')

/-- The loop over the characters of `DecodeBase58`, up to the end or a space:
`none` at a character outside the alphabet, else the buffer and what is
left. -/
def decodeChars : List Nat → List Char → Except Abort (Option (List Nat × List Char))
  | b256, [] => pure (some (b256, []))
  | b256, c :: cs =>
    if isspace c then pure (some (b256, c :: cs))
    else
      match pszBase58.idxOf? c with
      | none => pure none
      | some ch => do
        let b256 ← applyDigit 58 256 b256 ch
        decodeChars b256 cs

/-- `DecodeBase58`: `none` where it returns false. -/
def DecodeBase58 (psz : List Char) : Except Abort (Option (List UInt8)) := do
  let (zeroes, psz) ← countLeading (· == '1') 0 (psz.dropWhile isspace)
  match ← decodeChars (List.replicate (psz.length * 733 / 1000 + 1) 0) psz with
  | none => pure none
  | some (b256, rest) =>
    if rest.dropWhile isspace = [] then
      pure (some (List.replicate zeroes 0 ++ (b256.dropWhile (· == 0)).map UInt8.ofNat))
    else pure none

section Check

variable (Hash : List UInt8 → uint256)

/-- `EncodeBase58Check`: the payload and the first four bytes of its hash. -/
def EncodeBase58Check (vchIn : List UInt8) : Except Abort (List Char) :=
  EncodeBase58 (vchIn ++ (serUint256 (Hash vchIn)).take 4)

/-- `DecodeBase58Check`: `none` where it returns false. -/
def DecodeBase58Check (psz : List Char) : Except Abort (Option (List UInt8)) := do
  match ← DecodeBase58 psz with
  | none => pure none
  | some vchRet =>
    if vchRet.length < 4 then pure none
    else if (serUint256 (Hash (vchRet.take (vchRet.length - 4)))).take 4 =
        vchRet.drop (vchRet.length - 4) then
      pure (some (vchRet.take (vchRet.length - 4)))
    else pure none

end Check

/-! ## The alphabet -/

theorem idxOf?_getD {d : Nat} (hd : d < 58) :
    pszBase58.idxOf? (pszBase58.getD d '1') = some d := by
  have hAll : ∀ d : Fin 58, pszBase58.idxOf? (pszBase58.getD d '1') = some d.val := by decide
  exact hAll ⟨d, hd⟩

theorem isspace_getD {d : Nat} (hd : d < 58) : isspace (pszBase58.getD d '1') = false := by
  have hAll : ∀ d : Fin 58, isspace (pszBase58.getD d '1') = false := by decide
  exact hAll ⟨d, hd⟩

theorem getD_eq_one_iff {d : Nat} (hd : d < 58) : pszBase58.getD d '1' = '1' ↔ d = 0 := by
  have hAll : ∀ d : Fin 58, (pszBase58.getD d '1' == '1') = (d.val == 0) := by decide
  simpa using hAll ⟨d, hd⟩

/-- The digit `strchr` finds for a character of the alphabet. -/
theorem idxOf?_of_mem {c : Char} (hc : c ∈ pszBase58) :
    ∃ d, pszBase58.idxOf? c = some d ∧ d < 58 ∧ pszBase58.getD d '1' = c := by
  obtain ⟨d, hd⟩ := Option.isSome_iff_exists.1
    (Option.isSome_iff_ne_none.2 (List.idxOf?_eq_none_iff.not.2 (not_not.2 hc)))
  obtain ⟨hLt, hGet, -⟩ := List.idxOf?_eq_some_iff.1 hd
  exact ⟨d, hd, hLt, by rw [List.getD_eq_getElem _ _ hLt, hGet]⟩

theorem isspace_of_mem {c : Char} (hc : c ∈ pszBase58) : isspace c = false := by
  obtain ⟨d, -, hd, rfl⟩ := idxOf?_of_mem hc
  exact isspace_getD hd

theorem lt_of_idxOf? {c : Char} {d : Nat} (h : pszBase58.idxOf? c = some d) : d < 58 :=
  (List.idxOf?_eq_some_iff.1 h).1

/-! ## The loops -/

section Leading

variable {α : Type} (p : α → Bool)

/-- Below `INT_MAX` the count is the length of the leading run. -/
theorem countLeading_eq (l : List α) :
    ∀ z, z + (l.takeWhile p).length < 2 ^ 31 →
      countLeading p z l = .ok (z + (l.takeWhile p).length, l.dropWhile p) := by
  induction l with
  | nil => intro z _; rfl
  | cons a as ih =>
    intro z hz
    by_cases ha : p a = true
    · have hLen : ((a :: as).takeWhile p).length = (as.takeWhile p).length + 1 := by
        simp [ha]
      rw [hLen] at hz ⊢
      rw [countLeading, if_pos ha, if_neg (by omega), ih (z + 1) (by omega),
        List.dropWhile_cons, if_pos ha, Nat.add_assoc, Nat.add_comm 1]
    · have hTake : (a :: as).takeWhile p = [] := by simp [ha]
      have hDrop : (a :: as).dropWhile p = a :: as := by simp [ha]
      rw [countLeading, if_neg ha, hTake, hDrop, List.length_nil, Nat.add_zero]
      rfl

/-- At `2 ^ 31` the increment overflows. -/
theorem countLeading_overflow (l : List α) :
    ∀ z, z < 2 ^ 31 → 2 ^ 31 ≤ z + (l.takeWhile p).length →
      countLeading p z l = .error .intOverflow := by
  induction l with
  | nil => intro z hz hOver; simp at hOver; omega
  | cons a as ih =>
    intro z hz hOver
    by_cases ha : p a = true
    · have hLen : ((a :: as).takeWhile p).length = (as.takeWhile p).length + 1 := by
        simp [ha]
      rw [countLeading, if_pos ha]
      by_cases hMax : z = 2 ^ 31 - 1
      · rw [if_pos hMax]; rfl
      · rw [if_neg hMax]
        exact ih (z + 1) (by omega) (by omega)
    · simp [ha] at hOver
      omega

theorem countLeading_ne_assert (l : List α) :
    ∀ z, countLeading p z l ≠ .error .assertCarry := by
  induction l with
  | nil => intro z h; cases h
  | cons a as ih =>
    intro z
    rw [countLeading]
    split
    · split
      · intro h; cases h
      · exact ih (z + 1)
    · intro h; cases h

end Leading

theorem applyDigit_of_fits {mul base k : Nat} {buf : List Nat} {d : Nat} (hb : 1 < base)
    (h : Fits mul base (k + 1) buf) (hd : d < mul) :
    applyDigit mul base buf d = .ok (mulAddBE mul base buf d).1 := by
  rw [applyDigit, if_pos (h.mulAddBE_carry hb hd)]
  rfl

/-- With room in the buffer no byte aborts, and the loop is `horner`. -/
theorem encodeBytes_eq (bytes : List UInt8) :
    ∀ {b58 : List Nat}, Fits 256 58 bytes.length b58 →
      encodeBytes b58 bytes = .ok (horner 256 58 b58 (bytes.map UInt8.toNat)) := by
  induction bytes with
  | nil => intro b58 _; rfl
  | cons ch rest ih =>
    intro b58 h
    have hch : ch.toNat < 256 := ch.toNat_lt
    rw [encodeBytes, applyDigit_of_fits (by norm_num) h hch]
    exact ih (h.mulAddBE (by norm_num) hch)

/-- With room in the buffer, the characters of base-58 digits convert by
`horner` and leave nothing. -/
theorem decodeChars_digits (ds : List Nat) (hds : ∀ d ∈ ds, d < 58) :
    ∀ {b256 : List Nat}, Fits 58 256 ds.length b256 →
      decodeChars b256 (ds.map fun d => pszBase58.getD d '1') =
        .ok (some (horner 58 256 b256 ds, [])) := by
  induction ds with
  | nil => intro b256 _; rfl
  | cons d ds ih =>
    intro b256 h
    have hd : d < 58 := hds d List.mem_cons_self
    rw [List.map_cons, decodeChars, if_neg (by rw [isspace_getD hd]; decide), idxOf?_getD hd]
    show (applyDigit 58 256 b256 d >>= fun b => decodeChars b _) = _
    rw [applyDigit_of_fits (by norm_num) h hd]
    exact ih (fun x hx => hds x (List.mem_cons_of_mem d hx)) (h.mulAddBE (by norm_num) hd)

/-- With room for every character, no character aborts. -/
theorem decodeChars_ne_assert (cs : List Char) :
    ∀ {b256 : List Nat}, Fits 58 256 cs.length b256 → ∀ r, decodeChars b256 cs ≠ .error r := by
  induction cs with
  | nil => intro b256 _ r h; cases h
  | cons c cs ih =>
    intro b256 h r
    rw [decodeChars]
    split
    · intro h'; cases h'
    · split
      · intro h'; cases h'
      · next ch hch =>
        show (applyDigit 58 256 b256 ch >>= fun b => decodeChars b cs) ≠ _
        rw [applyDigit_of_fits (by norm_num) h (lt_of_idxOf? hch)]
        exact ih (h.mulAddBE (by norm_num) (lt_of_idxOf? hch)) r

/-! ## What the functions return -/

/-- The zero buffer `EncodeBase58` sizes for `n` bytes has room for them. -/
theorem fits_b58 (n : Nat) : Fits 256 58 n (List.replicate (n * 138 / 100 + 1) 0) :=
  fits_replicate_zero (by norm_num) (by norm_num) (by norm_num) (by norm_num) le_rfl

/-- The zero buffer `DecodeBase58` sizes for `n` characters has room for them. -/
theorem fits_b256 (n : Nat) : Fits 58 256 n (List.replicate (n * 733 / 1000 + 1) 0) :=
  fits_replicate_zero (by decide +kernel) (by norm_num) (by norm_num) (by norm_num) le_rfl

theorem toNat_lt_of_mem (bytes : List UInt8) : ∀ d ∈ bytes.map UInt8.toNat, d < 256 := by
  intro d hd
  obtain ⟨x, -, rfl⟩ := List.mem_map.1 hd
  exact x.toNat_lt

/-- `EncodeBase58` writes the leading zero bytes as `1`s and the value of the
other bytes by its base-58 digits. -/
theorem EncodeBase58_eq (v : List UInt8) (hz : (v.takeWhile (· == 0)).length < 2 ^ 31) :
    EncodeBase58 v = .ok (List.replicate (v.takeWhile (· == 0)).length '1' ++
      (Nat.digits 58 (valueBE 256 ((v.dropWhile (· == 0)).map UInt8.toNat))).reverse.map
        fun d => pszBase58.getD d '1') := by
  have hLt := toNat_lt_of_mem (v.dropWhile (· == 0))
  have hFits : Fits 256 58 (0 + ((v.dropWhile (· == 0)).map UInt8.toNat).length)
      (List.replicate ((v.dropWhile (· == 0)).length * 138 / 100 + 1) 0) := by
    rw [Nat.zero_add, List.length_map]
    exact fits_b58 _
  have hDigits := (hFits.horner (by norm_num) hLt).digit_lt
  rw [EncodeBase58, countLeading_eq _ v 0 (by simpa using hz)]
  show (encodeBytes _ (v.dropWhile (· == 0)) >>= fun b58 => pure _) = _
  rw [encodeBytes_eq _ (by simpa using hFits)]
  show Except.ok _ = Except.ok _
  rw [Nat.zero_add, dropWhile_zero_eq_digits (by norm_num) hDigits,
    valueBE_horner (by norm_num) hLt hFits]
  simp

/-- The digits of the characters of the alphabet, by `strchr`. -/
theorem digits_lt_of_mem {t : List Char} (ht : ∀ c ∈ t, c ∈ pszBase58) :
    ∀ d ∈ t.map (fun c => (pszBase58.idxOf? c).getD 0), d < 58 := by
  intro d hd
  obtain ⟨c, hc, rfl⟩ := List.mem_map.1 hd
  obtain ⟨d, hIdx, hLt, -⟩ := idxOf?_of_mem (ht c hc)
  rw [hIdx]
  exact hLt

theorem map_getD_digits {t : List Char} (ht : ∀ c ∈ t, c ∈ pszBase58) :
    (t.map fun c => (pszBase58.idxOf? c).getD 0).map (fun d => pszBase58.getD d '1') = t := by
  apply map_map_eq_self
  intro c hc
  obtain ⟨d, hIdx, -, hGet⟩ := idxOf?_of_mem (ht c hc)
  show pszBase58.getD ((pszBase58.idxOf? c).getD 0) '1' = c
  rw [hIdx]
  exact hGet

/-- `DecodeBase58` of a string over the alphabet: the leading `1`s as zero
bytes, then the value of the other characters by its bytes. -/
theorem DecodeBase58_eq (s : List Char) (hs : ∀ c ∈ s, c ∈ pszBase58)
    (hz : (s.takeWhile (· == '1')).length < 2 ^ 31) :
    DecodeBase58 s = .ok (some (List.replicate (s.takeWhile (· == '1')).length 0 ++
      (Nat.digits 256 (valueBE 58 ((s.dropWhile (· == '1')).map
        fun c => (pszBase58.idxOf? c).getD 0))).reverse.map UInt8.ofNat)) := by
  have hSpace : s.dropWhile isspace = s := by
    cases s with
    | nil => rfl
    | cons c cs => simp [isspace_of_mem (hs c List.mem_cons_self)]
  have ht : ∀ c ∈ s.dropWhile (· == '1'), c ∈ pszBase58 :=
    fun c hc => hs c ((List.dropWhile_sublist _).subset hc)
  have hds := digits_lt_of_mem ht
  have hFits : Fits 58 256 (0 + ((s.dropWhile (· == '1')).map
      fun c => (pszBase58.idxOf? c).getD 0).length)
      (List.replicate ((s.dropWhile (· == '1')).length * 733 / 1000 + 1) 0) := by
    rw [Nat.zero_add, List.length_map]
    exact fits_b256 _
  have hDigits := (hFits.horner (by norm_num) hds).digit_lt
  have hDecode := decodeChars_digits _ hds (by simpa using hFits)
  rw [map_getD_digits ht] at hDecode
  rw [DecodeBase58, hSpace, countLeading_eq _ s 0 (by simpa using hz)]
  dsimp only [bind, Except.bind]
  rw [hDecode]
  dsimp only
  rw [List.dropWhile_nil, if_pos rfl, Nat.zero_add, dropWhile_zero_eq_digits (by norm_num) hDigits,
    valueBE_horner (by norm_num) hds hFits, valueBE_replicate_zero, Nat.zero_mul, Nat.zero_add]
  rfl

/-! ## Round trips -/

theorem getD_mem {d : Nat} (hd : d < 58) : pszBase58.getD d '1' ∈ pszBase58 := by
  rw [List.getD_eq_getElem _ _ (by simpa [pszBase58] using hd)]
  exact List.getElem_mem _

/-- The string of base-58 digits without a leading zero starts with another
character than `1`. -/
theorem map_getD_head? {ds : List Nat} (hds : ∀ d ∈ ds, d < 58) (hHead : ∀ d ∈ ds.head?, d ≠ 0) :
    ∀ c ∈ (ds.map fun d => pszBase58.getD d '1').head?, (c == '1') = false := by
  intro c hc
  rw [List.head?_map] at hc
  obtain ⟨d, hd, rfl⟩ := Option.mem_map.1 hc
  have hLt := hds d (List.mem_of_mem_head? hd)
  rw [beq_eq_false_iff_ne, Ne, getD_eq_one_iff hLt]
  exact hHead d hd

/-- The bytes of a value without a leading zero start with a non-zero byte. -/
theorem map_ofNat_head? {ds : List Nat} (hds : ∀ d ∈ ds, d < 256) (hHead : ∀ d ∈ ds.head?, d ≠ 0) :
    ∀ x ∈ (ds.map UInt8.ofNat).head?, (x == 0) = false := by
  intro x hx
  rw [List.head?_map] at hx
  obtain ⟨d, hd, rfl⟩ := Option.mem_map.1 hx
  have hLt := hds d (List.mem_of_mem_head? hd)
  have hToNat : (UInt8.ofNat d).toNat = d := by
    rw [UInt8.toNat_ofNat', Nat.mod_eq_of_lt (show d < 2 ^ 8 by omega)]
  rw [beq_eq_false_iff_ne]
  intro hZero
  rw [hZero] at hToNat
  exact hHead d hd hToNat.symm

/-- What the leading zero bytes leave starts with a non-zero byte. -/
theorem toNat_head?_dropWhile (v : List UInt8) :
    ∀ d ∈ ((v.dropWhile (· == 0)).map UInt8.toNat).head?, d ≠ 0 := by
  intro d hd
  rw [List.head?_map] at hd
  obtain ⟨x, hx, rfl⟩ := Option.mem_map.1 hd
  have hNe : x ≠ 0 := by simpa using mem_head?_dropWhile (· == 0) v x hx
  exact fun hZero => hNe (UInt8.toNat_inj.1 (by rw [hZero]; rfl))

/-- Encoding, then decoding, gives the bytes back. -/
theorem DecodeBase58_EncodeBase58 (v : List UInt8) (hz : (v.takeWhile (· == 0)).length < 2 ^ 31) :
    ∃ s, EncodeBase58 v = .ok s ∧ DecodeBase58 s = .ok (some v) := by
  have hds : ∀ d ∈ (Nat.digits 58 (valueBE 256 ((v.dropWhile (· == 0)).map UInt8.toNat))).reverse,
      d < 58 := fun d hd => Nat.digits_lt_base (by norm_num) (List.mem_reverse.1 hd)
  have hHead := map_getD_head? hds fun d hd => ne_zero_of_mem_head?_digits hd
  have hTake := takeWhile_replicate_append (· == '1') (a := '1') rfl (v.takeWhile (· == 0)).length hHead
  have hDrop := dropWhile_replicate_append (· == '1') (a := '1') rfl (v.takeWhile (· == 0)).length hHead
  have hMem : ∀ c ∈ List.replicate (v.takeWhile (· == 0)).length '1' ++
      (Nat.digits 58 (valueBE 256 ((v.dropWhile (· == 0)).map UInt8.toNat))).reverse.map
        (fun d => pszBase58.getD d '1'), c ∈ pszBase58 := by
    intro c hc
    rcases List.mem_append.1 hc with hOne | hDigit
    · rw [List.eq_of_mem_replicate hOne]
      exact List.mem_cons_self
    · obtain ⟨d, hd, rfl⟩ := List.mem_map.1 hDigit
      exact getD_mem (hds d hd)
  have hIdx : ((Nat.digits 58 (valueBE 256 ((v.dropWhile (· == 0)).map UInt8.toNat))).reverse.map
      (fun d => pszBase58.getD d '1')).map (fun c => (pszBase58.idxOf? c).getD 0) =
      (Nat.digits 58 (valueBE 256 ((v.dropWhile (· == 0)).map UInt8.toNat))).reverse := by
    apply map_map_eq_self
    intro d hd
    show (pszBase58.idxOf? (pszBase58.getD d '1')).getD 0 = d
    rw [idxOf?_getD (hds d hd)]
    rfl
  have hRest := eq_digits_of_head? (by norm_num) (toNat_lt_of_mem (v.dropWhile (· == 0)))
    (toNat_head?_dropWhile v)
  refine ⟨_, EncodeBase58_eq v hz, ?_⟩
  rw [DecodeBase58_eq _ hMem (by rw [hTake, List.length_replicate]; exact hz), hTake, hDrop,
    List.length_replicate, hIdx, valueBE_digits, ← hRest,
    map_map_eq_self fun x _ => UInt8.ofNat_toNat, replicate_takeWhile_append]

/-- Decoding a string over the alphabet, then encoding, gives the string back. -/
theorem EncodeBase58_DecodeBase58 (s : List Char) (hs : ∀ c ∈ s, c ∈ pszBase58)
    (hz : (s.takeWhile (· == '1')).length < 2 ^ 31) :
    ∃ v, DecodeBase58 s = .ok (some v) ∧ EncodeBase58 v = .ok s := by
  have ht : ∀ c ∈ s.dropWhile (· == '1'), c ∈ pszBase58 :=
    fun c hc => hs c ((List.dropWhile_sublist _).subset hc)
  have hds := digits_lt_of_mem ht
  have hHead : ∀ d ∈ ((s.dropWhile (· == '1')).map fun c => (pszBase58.idxOf? c).getD 0).head?,
      d ≠ 0 := by
    intro d hd
    rw [List.head?_map] at hd
    obtain ⟨c, hc, rfl⟩ := Option.mem_map.1 hd
    obtain ⟨d, hIdx, hLt, hGet⟩ := idxOf?_of_mem (ht c (List.mem_of_mem_head? hc))
    have hNotOne := mem_head?_dropWhile (· == '1') s c hc
    rw [hIdx, Option.getD_some]
    intro hZero
    rw [hZero] at hGet
    rw [← hGet] at hNotOne
    exact absurd hNotOne (by decide)
  have hDigits := eq_digits_of_head? (by norm_num) hds hHead
  have hBytes : ∀ d ∈ (Nat.digits 256 (valueBE 58 ((s.dropWhile (· == '1')).map
      fun c => (pszBase58.idxOf? c).getD 0))).reverse, d < 256 :=
    fun d hd => Nat.digits_lt_base (by norm_num) (List.mem_reverse.1 hd)
  have hByteHead := map_ofNat_head? hBytes fun d hd => ne_zero_of_mem_head?_digits hd
  have hTake := takeWhile_replicate_append (· == 0) (a := 0) rfl (s.takeWhile (· == '1')).length hByteHead
  have hDrop := dropWhile_replicate_append (· == 0) (a := 0) rfl (s.takeWhile (· == '1')).length hByteHead
  have hToNat : ((Nat.digits 256 (valueBE 58 ((s.dropWhile (· == '1')).map
      fun c => (pszBase58.idxOf? c).getD 0))).reverse.map UInt8.ofNat).map UInt8.toNat =
      (Nat.digits 256 (valueBE 58 ((s.dropWhile (· == '1')).map
        fun c => (pszBase58.idxOf? c).getD 0))).reverse := by
    apply map_map_eq_self
    intro d hd
    show (UInt8.ofNat d).toNat = d
    rw [UInt8.toNat_ofNat', Nat.mod_eq_of_lt (show d < 2 ^ 8 by have := hBytes d hd; omega)]
  refine ⟨_, DecodeBase58_eq s hs hz, ?_⟩
  rw [EncodeBase58_eq _ (by rw [hTake, List.length_replicate]; exact hz), hTake, hDrop,
    List.length_replicate, hToNat, valueBE_digits, ← hDigits, map_getD_digits ht,
    replicate_takeWhile_append]

/-! ## The asserts -/

/-- `assert(carry == 0)` in `EncodeBase58` never fires: the buffer has room
for every byte. -/
theorem EncodeBase58_ne_assert (v : List UInt8) : EncodeBase58 v ≠ .error .assertCarry := by
  cases hCount : countLeading (· == 0) 0 v with
  | error e =>
    rw [EncodeBase58, hCount]
    intro h
    cases h
    exact countLeading_ne_assert _ v 0 hCount
  | ok r =>
    obtain ⟨zeroes, rest⟩ := r
    rw [EncodeBase58, hCount]
    dsimp only [bind, Except.bind]
    rw [encodeBytes_eq rest (fits_b58 _)]
    intro h
    cases h

/-- `assert(carry == 0)` in `DecodeBase58` never fires, whatever the string:
the buffer has room for every character. -/
theorem DecodeBase58_ne_assert (psz : List Char) : DecodeBase58 psz ≠ .error .assertCarry := by
  cases hCount : countLeading (· == '1') 0 (psz.dropWhile isspace) with
  | error e =>
    rw [DecodeBase58, hCount]
    intro h
    cases h
    exact countLeading_ne_assert _ _ 0 hCount
  | ok r =>
    obtain ⟨zeroes, rest⟩ := r
    rw [DecodeBase58, hCount]
    dsimp only [bind, Except.bind]
    cases hChars : decodeChars (List.replicate (rest.length * 733 / 1000 + 1) 0) rest with
    | error e => exact absurd hChars (decodeChars_ne_assert rest (fits_b256 _) e)
    | ok o =>
      dsimp only
      rcases o with _ | ⟨b256, left⟩
      · intro h; cases h
      · dsimp only
        split <;> (intro h; cases h)

/-! ## The checked form -/

/-- Decoding the checked encoding gives the payload back, for any hash. -/
theorem DecodeBase58Check_EncodeBase58Check (Hash : List UInt8 → uint256) (v : List UInt8)
    (hz : (v.takeWhile (· == 0)).length + 4 < 2 ^ 31) :
    ∃ s, EncodeBase58Check Hash v = .ok s ∧ DecodeBase58Check Hash s = .ok (some v) := by
  have hLen : ((serUint256 (Hash v)).take 4).length = 4 := by simp [serUint256]
  have hz' : ((v ++ (serUint256 (Hash v)).take 4).takeWhile (· == 0)).length < 2 ^ 31 :=
    lt_of_le_of_lt (length_takeWhile_append_le _ v _) (by rw [hLen]; exact hz)
  obtain ⟨s, hEnc, hDec⟩ := DecodeBase58_EncodeBase58 _ hz'
  refine ⟨s, hEnc, ?_⟩
  have hTake : (v ++ (serUint256 (Hash v)).take 4).take
      ((v ++ (serUint256 (Hash v)).take 4).length - 4) = v := by simp [hLen]
  have hDrop : (v ++ (serUint256 (Hash v)).take 4).drop
      ((v ++ (serUint256 (Hash v)).take 4).length - 4) = (serUint256 (Hash v)).take 4 := by
    simp [hLen]
  rw [DecodeBase58Check, hDec]
  dsimp only [bind, Except.bind]
  rw [if_neg (by simp [hLen]), hTake, hDrop, if_pos rfl]
  rfl

/-! ## Round trips and asserts -/

/-- Base58 round-trips bytes with fewer than `2 ^ 31` leading zeros and
strings over the alphabet with fewer than `2 ^ 31` leading `1`s, never fires
`assert(carry == 0)`, and round-trips the checked form for any hash. -/
theorem base58_roundtrip (Hash : List UInt8 → uint256) :
    (∀ v : List UInt8, (v.takeWhile (· == 0)).length < 2 ^ 31 →
      ∃ s, EncodeBase58 v = .ok s ∧ DecodeBase58 s = .ok (some v)) ∧
    (∀ s : List Char, (∀ c ∈ s, c ∈ pszBase58) → (s.takeWhile (· == '1')).length < 2 ^ 31 →
      ∃ v, DecodeBase58 s = .ok (some v) ∧ EncodeBase58 v = .ok s) ∧
    (∀ v : List UInt8, EncodeBase58 v ≠ .error .assertCarry) ∧
    (∀ psz : List Char, DecodeBase58 psz ≠ .error .assertCarry) ∧
    (∀ v : List UInt8, (v.takeWhile (· == 0)).length + 4 < 2 ^ 31 →
      ∃ s, EncodeBase58Check Hash v = .ok s ∧ DecodeBase58Check Hash s = .ok (some v)) :=
  ⟨DecodeBase58_EncodeBase58, EncodeBase58_DecodeBase58, EncodeBase58_ne_assert,
    DecodeBase58_ne_assert, DecodeBase58Check_EncodeBase58Check Hash⟩

theorem base58_roundtrip_leading_zero :
    ∃ s, EncodeBase58 [0, 0x61] = .ok s ∧ DecodeBase58 s = .ok (some [0, 0x61]) :=
  (base58_roundtrip fun _ => 0).1 [0, 0x61] (by decide)

/-- With `2 ^ 31` leading zero bytes, or `1`s, `zeroes++` overflows `int`. -/
theorem base58_int_overflow :
    EncodeBase58 (List.replicate (2 ^ 31) 0) = .error .intOverflow ∧
      DecodeBase58 (List.replicate (2 ^ 31) '1') = .error .intOverflow := by
  have hZeros : ((List.replicate (2 ^ 31) (0 : UInt8)).takeWhile (· == 0)).length = 2 ^ 31 := by
    rw [List.takeWhile_replicate, if_pos (beq_self_eq_true _), List.length_replicate]
  have hOnes : ((List.replicate (2 ^ 31) '1').takeWhile (· == '1')).length = 2 ^ 31 := by
    rw [List.takeWhile_replicate, if_pos (beq_self_eq_true _), List.length_replicate]
  have hSpace : (List.replicate (2 ^ 31) '1').dropWhile isspace = List.replicate (2 ^ 31) '1' := by
    rw [List.dropWhile_replicate, if_neg (by decide)]
  constructor
  · rw [EncodeBase58, countLeading_overflow _ _ 0 (by norm_num) (by rw [hZeros]; omega)]
    rfl
  · rw [DecodeBase58, hSpace, countLeading_overflow _ _ 0 (by norm_num) (by rw [hOnes]; omega)]
    rfl

end FairCoin.Ports.Base58
