import FairCoin.Ports.Interpreter

/-!
# Strict DER signatures

`IsValidSignatureEncoding` checks the layout
`0x30 L 0x02 lenR R 0x02 lenS S hashtype` with a run of index computations
(`5 + lenR`, `lenR + 4`, `lenR + 6`, `lenR + 7`), each guarded by an earlier
length test. This module states what the function is for and proves that it
does it.

The strict DER signatures are `derSignature L R S h` with `R` and `S` the
shortest big-endian encodings of non-negative integers (`IsDERInteger`). The
function accepts exactly those whose total length byte `L` is the length of
the rest, within the sizes 9 to 73. The reads are in range: the function with
each `sig[i]` checked against the size (`IsValidSignatureEncodingReads`)
never reads past the end and computes the same answer.

The argument goes through the checks one integer at a time: `integerChecks`
is the test the source makes of one integer, and on a string cut into the
frame bytes and the two integers it is `IsDERInteger` of that integer
(`integerChecks_frame`).

## Main results

* `isValidSignatureEncoding_strictDER` — the function accepts exactly the
  strict DER signatures of 9 to 73 bytes, and every read it makes is in
  range.
-/

namespace FairCoin.Ports.SigEncoding

open FairCoin.Ports.Script FairCoin.Ports.Interpreter

/-! ## What the test is for -/

/-- The shortest big-endian encoding of a non-negative integer: at least one
byte, the top bit of the first one clear, and a leading zero only before a
byte whose top bit is set. -/
def IsDERInteger : valtype → Bool
  | [] => false
  | [b] => b &&& 0x80 == 0
  | b :: c :: _ => b &&& 0x80 == 0 && !(b == 0x00 && c &&& 0x80 == 0)

/-- The strict DER layout `0x30 L 0x02 lenR R 0x02 lenS S h` of a signature
and its hash type byte `h`. -/
def derSignature (L : UInt8) (R S : valtype) (h : UInt8) : valtype :=
  [0x30, L, 0x02, UInt8.ofNat R.length] ++ R ++ [0x02, UInt8.ofNat S.length] ++ S ++ [h]

/-! ## The reads of the source -/

/-- The four checks of one integer in `IsValidSignatureEncoding`, with each
`sig[i]` read through `sig[i]?`: the tag `sig[m]`, a non-zero length, the
sign bit of `sig[m + 2]`, and the leading zero, where `sig[m + 2]` is read
again only when `len > 1` and `sig[m + 3]` only when `sig[m + 2]` is zero.
`none` is a read past the end. -/
def integerReads (sig : valtype) (m len : Nat) : Option Bool :=
  Option.bind sig[m]? fun (tag : UInt8) =>
  if tag != 0x02 then some false
  else if len == 0 then some false
  else Option.bind sig[m + 2]? fun (first : UInt8) =>
  if first &&& 0x80 != 0 then some false
  else if len > 1 then
    Option.bind sig[m + 2]? fun (first : UInt8) =>
    if first == 0x00 then Option.bind sig[m + 3]? fun (next : UInt8) => some !(next &&& 0x80 == 0)
    else some true
  else some true

/-- `IsValidSignatureEncoding` with each `sig[i]` read through `sig[i]?`, in
the order the source reads them; `none` is a read past the end. The checks
of `R` and of `S` are the same four, `integerReads` at the tag of each. -/
def IsValidSignatureEncodingReads (sig : valtype) : Option Bool :=
  if sig.length < 9 then some false
  else if sig.length > 73 then some false
  else Option.bind sig[0]? fun (b0 : UInt8) =>
  if b0 != 0x30 then some false
  else Option.bind sig[1]? fun (b1 : UInt8) =>
  if b1.toNat != sig.length - 3 then some false
  else Option.bind sig[3]? fun (b3 : UInt8) =>
  if 5 + b3.toNat ≥ sig.length then some false
  else Option.bind sig[5 + b3.toNat]? fun (b5 : UInt8) =>
  if b3.toNat + b5.toNat + 7 != sig.length then some false
  else Option.bind (integerReads sig 2 b3.toNat) fun (okR : Bool) =>
  if !okR then some false
  else integerReads sig (b3.toNat + 4) b5.toNat

/-- The checks `IsValidSignatureEncoding` makes of the integer whose tag is
at `sig[m]` and whose `len` bytes start at `sig[m + 2]`. -/
def integerChecks (sig : valtype) (m len : Nat) : Bool :=
  sig.getD m 0 == 0x02 && len != 0 && sig.getD (m + 2) 0 &&& 0x80 == 0 &&
    !(decide (len > 1) && sig.getD (m + 2) 0 == 0x00 && sig.getD (m + 3) 0 &&& 0x80 == 0)

/-! ## The checks of the source -/

/-- What `IsValidSignatureEncoding` checks, as one conjunction: the sizes,
the `0x30` and the total length, that `lenS` lies inside the string, that the
lengths add up, and the checks of the two integers. -/
theorem IsValidSignatureEncoding_eq_true_iff (sig : valtype) :
    IsValidSignatureEncoding sig = true ↔
      9 ≤ sig.length ∧ sig.length ≤ 73 ∧ sig.getD 0 0 = 0x30 ∧
      (sig.getD 1 0).toNat = sig.length - 3 ∧ 5 + (sig.getD 3 0).toNat < sig.length ∧
      (sig.getD 3 0).toNat + (sig.getD (5 + (sig.getD 3 0).toNat) 0).toNat + 7 = sig.length ∧
      integerChecks sig 2 (sig.getD 3 0).toNat = true ∧
      integerChecks sig ((sig.getD 3 0).toNat + 4)
        (sig.getD (5 + (sig.getD 3 0).toNat) 0).toNat = true := by
  simp only [IsValidSignatureEncoding, integerChecks, Bool.if_false_left, Bool.and_eq_true,
    Bool.not_eq_true', Bool.and_true, Nat.add_assoc, Nat.reduceAdd, bne_iff_ne, ne_eq, not_not,
    beq_iff_eq, decide_eq_true_eq, Bool.eq_false_iff, not_lt, not_le, and_assoc]

/-- Once the size, the header and the lengths pass, the answer is that of
the checks of the two integers. -/
theorem IsValidSignatureEncoding_of_frame {sig : valtype} (hMin : 9 ≤ sig.length)
    (hMax : sig.length ≤ 73) (hHead : sig.getD 0 0 = 0x30)
    (hTotal : (sig.getD 1 0).toNat = sig.length - 3)
    (hInside : 5 + (sig.getD 3 0).toNat < sig.length)
    (hSum : (sig.getD 3 0).toNat + (sig.getD (5 + (sig.getD 3 0).toNat) 0).toNat + 7 =
      sig.length) :
    IsValidSignatureEncoding sig = (integerChecks sig 2 (sig.getD 3 0).toNat &&
      integerChecks sig ((sig.getD 3 0).toNat + 4)
        (sig.getD (5 + (sig.getD 3 0).toNat) 0).toNat) := by
  apply Bool.eq_iff_iff.2
  rw [IsValidSignatureEncoding_eq_true_iff, Bool.and_eq_true]
  simp only [hMin, hMax, hHead, hTotal, hInside, hSum, true_and]

/-! ## The reads are in range -/

theorem getElem?_eq_some_getD {l : valtype} {i : Nat} (h : i < l.length) :
    l[i]? = some (l.getD i 0) := by
  rw [List.getElem?_eq_getElem h, List.getD_eq_getElem]

/-- The reads of one integer stay inside a string that holds its tag, its
length byte and its `len` bytes. -/
theorem integerReads_eq {sig : valtype} {m len : Nat} (h : m + 2 + len ≤ sig.length) :
    integerReads sig m len = some (integerChecks sig m len) := by
  have hTag : sig[m]? = some (sig.getD m 0) := getElem?_eq_some_getD (by omega)
  unfold integerReads integerChecks
  rw [hTag, Option.bind_some]
  by_cases hTagOk : sig.getD m 0 = 0x02
  · by_cases hLen : len = 0
    · simp [-List.getD_eq_getElem?_getD, hTagOk, hLen]
    have hFirst : sig[m + 2]? = some (sig.getD (m + 2) 0) := getElem?_eq_some_getD (by omega)
    rw [hFirst]
    by_cases hSign : sig.getD (m + 2) 0 &&& 0x80 = 0
    · by_cases hLong : len > 1
      · have hNext : sig[m + 3]? = some (sig.getD (m + 3) 0) := getElem?_eq_some_getD (by omega)
        by_cases hZero : sig.getD (m + 2) 0 = 0
        · simp [-List.getD_eq_getElem?_getD, hTagOk, hLen, hLong, hZero, hNext]
        · simp [-List.getD_eq_getElem?_getD, hTagOk, hLen, hSign, hLong, hZero]
      · simp [-List.getD_eq_getElem?_getD, hTagOk, hLen, hSign, hLong]
    · simp [-List.getD_eq_getElem?_getD, hTagOk, hLen, hSign]
  · simp [-List.getD_eq_getElem?_getD, hTagOk]

/-- Every read of `IsValidSignatureEncoding` is in range: with each read
checked against the size, the function reads nothing past the end and
computes the same answer. -/
theorem IsValidSignatureEncodingReads_eq (sig : valtype) :
    IsValidSignatureEncodingReads sig = some (IsValidSignatureEncoding sig) := by
  by_cases hMin : sig.length < 9
  · simp [IsValidSignatureEncodingReads, IsValidSignatureEncoding, hMin]
  by_cases hMax : sig.length > 73
  · simp [IsValidSignatureEncodingReads, IsValidSignatureEncoding, hMin, hMax]
  -- From here on each read is rewritten to the byte the model reads, once
  -- the guards before it have put it in range.
  have h0 : sig[0]? = some (sig.getD 0 0) := getElem?_eq_some_getD (by omega)
  have h1 : sig[1]? = some (sig.getD 1 0) := getElem?_eq_some_getD (by omega)
  have h3 : sig[3]? = some (sig.getD 3 0) := getElem?_eq_some_getD (by omega)
  by_cases hHead : sig.getD 0 0 = 0x30
  swap
  · simp [-List.getD_eq_getElem?_getD, IsValidSignatureEncodingReads, IsValidSignatureEncoding,
      hMin, hMax, h0, hHead]
  by_cases hTotal : (sig.getD 1 0).toNat = sig.length - 3
  swap
  · simp [-List.getD_eq_getElem?_getD, IsValidSignatureEncodingReads, IsValidSignatureEncoding,
      hMin, hMax, h0, hHead, h1, hTotal]
  by_cases hInside : 5 + (sig.getD 3 0).toNat < sig.length
  swap
  · have hOut : 5 + (sig.getD 3 0).toNat ≥ sig.length := Nat.not_lt.1 hInside
    simp [-List.getD_eq_getElem?_getD, IsValidSignatureEncodingReads, IsValidSignatureEncoding,
      hMin, hMax, h0, hHead, h1, hTotal, h3, hOut]
  have h5 : sig[5 + (sig.getD 3 0).toNat]? = some (sig.getD (5 + (sig.getD 3 0).toNat) 0) :=
    getElem?_eq_some_getD hInside
  by_cases hSum : (sig.getD 3 0).toNat + (sig.getD (5 + (sig.getD 3 0).toNat) 0).toNat + 7 =
      sig.length
  swap
  · simp [-List.getD_eq_getElem?_getD, IsValidSignatureEncodingReads,
      IsValidSignatureEncoding, hMin, hMax, h0, hHead, h1, hTotal, h3, Nat.not_le.2 hInside, h5,
      hSum]
  have hR : 2 + 2 + (sig.getD 3 0).toNat ≤ sig.length := by omega
  have hS : (sig.getD 3 0).toNat + 4 + 2 + (sig.getD (5 + (sig.getD 3 0).toNat) 0).toNat ≤
      sig.length := by omega
  rw [IsValidSignatureEncoding_of_frame (by omega) (by omega) hHead hTotal hInside hSum]
  simp only [IsValidSignatureEncodingReads, if_neg hMin, if_neg hMax, h0, h1, h3, h5,
    Option.bind_some, hHead, hTotal, bne_self_eq_false, Bool.false_eq_true, if_false,
    if_neg (Nat.not_le.2 hInside), hSum, integerReads_eq hR, integerReads_eq hS]
  cases integerChecks sig 2 (sig.getD 3 0).toNat <;> rfl

/-! ## A string cut into the fields of the layout -/

theorem getD_append_length (pre l : valtype) (i : Nat) :
    (pre ++ l).getD (pre.length + i) 0 = l.getD i 0 := by
  rw [List.getD_append_right _ _ _ _ (Nat.le_add_right _ _), Nat.add_sub_cancel_left]

/-- On a string cut at an integer's tag, the checks of the source are the
tag `0x02` and `IsDERInteger` of the integer's bytes. -/
theorem integerChecks_frame (pre X post : valtype) (tag lenByte : UInt8) :
    integerChecks (pre ++ tag :: lenByte :: (X ++ post)) pre.length X.length =
      (tag == 0x02 && IsDERInteger X) := by
  have hTag := getD_append_length pre (tag :: lenByte :: (X ++ post)) 0
  have hFirst := getD_append_length pre (tag :: lenByte :: (X ++ post)) 2
  have hNext := getD_append_length pre (tag :: lenByte :: (X ++ post)) 3
  rw [Nat.add_zero] at hTag
  unfold integerChecks
  rw [hTag, hFirst, hNext]
  match X with
  | [] => simp [IsDERInteger]
  | [b] => simp [IsDERInteger]
  | b :: c :: rest => simp [IsDERInteger, Bool.and_assoc]

/-- A string of `m + n + 7` bytes cuts into four header bytes, `m` bytes, two
bytes, `n` bytes and a last byte. -/
theorem exists_frame (sig : valtype) (m n : Nat) (h : sig.length = m + n + 7) :
    ∃ a0 a1 a2 a3 R c0 c1 S t, sig = [a0, a1, a2, a3] ++ R ++ [c0, c1] ++ S ++ [t] ∧
      R.length = m ∧ S.length = n := by
  match sig, h with
  | [], h | [_], h | [_, _], h | [_, _, _], h => exact absurd h (by simp)
  | a0 :: a1 :: a2 :: a3 :: rest, h =>
    obtain ⟨R, tail, rfl, hR⟩ : ∃ R tail, rest = R ++ tail ∧ R.length = m :=
      ⟨rest.take m, rest.drop m, (List.take_append_drop m rest).symm,
        List.length_take_of_le (by simp at h; omega)⟩
    match tail, h with
    | [], h | [_], h => exact absurd h (by simp; omega)
    | c0 :: c1 :: rest', h =>
      have hRest : rest'.length = n + 1 := by simp at h; omega
      obtain ⟨S, last, rfl, hS⟩ : ∃ S last, rest' = S ++ last ∧ S.length = n :=
        ⟨rest'.take n, rest'.drop n, (List.take_append_drop n rest').symm,
          List.length_take_of_le (by omega)⟩
      obtain ⟨t, rfl⟩ : ∃ t, last = [t] :=
        List.length_eq_one_iff.1 (by simp at hRest; omega)
      exact ⟨a0, a1, a2, a3, R, c0, c1, S, t, by simp, hR, hS⟩

section Frame

variable (a0 a1 a2 a3 c0 c1 t : UInt8) (R S : valtype)

theorem length_frame :
    ([a0, a1, a2, a3] ++ R ++ [c0, c1] ++ S ++ [t]).length = R.length + S.length + 7 := by
  simp only [List.length_append, List.length_cons, List.length_nil]
  omega

theorem frame_getD_lenS :
    ([a0, a1, a2, a3] ++ R ++ [c0, c1] ++ S ++ [t]).getD (5 + R.length) 0 = c1 := by
  have hCut := getD_append_length ([a0, a1, a2, a3] ++ R) (c0 :: c1 :: (S ++ [t])) 1
  have hIndex : ([a0, a1, a2, a3] ++ R).length + 1 = 5 + R.length := by simp; omega
  rw [hIndex] at hCut
  simpa using hCut

theorem integerChecks_frame_R :
    integerChecks ([a0, a1, a2, a3] ++ R ++ [c0, c1] ++ S ++ [t]) 2 R.length =
      (a2 == 0x02 && IsDERInteger R) := by
  have hCut : [a0, a1, a2, a3] ++ R ++ [c0, c1] ++ S ++ [t] =
      [a0, a1] ++ a2 :: a3 :: (R ++ (c0 :: c1 :: (S ++ [t]))) := by simp
  rw [hCut]
  exact integerChecks_frame [a0, a1] R _ a2 a3

theorem integerChecks_frame_S :
    integerChecks ([a0, a1, a2, a3] ++ R ++ [c0, c1] ++ S ++ [t]) (R.length + 4) S.length =
      (c0 == 0x02 && IsDERInteger S) := by
  have hCut : [a0, a1, a2, a3] ++ R ++ [c0, c1] ++ S ++ [t] =
      ([a0, a1, a2, a3] ++ R) ++ c0 :: c1 :: (S ++ [t]) := by simp
  have hIndex : R.length + 4 = ([a0, a1, a2, a3] ++ R).length := by simp
  rw [hCut, hIndex]
  exact integerChecks_frame _ S [t] c0 c1

/-- The test on a string cut into the fields of the layout, with the length
bytes in their places: the whole fits in 73 bytes, the header is `0x30` and
the total length, both tags are `0x02`, and both integers are DER integers. -/
theorem IsValidSignatureEncoding_frame (hR : R.length < 256) (hS : S.length < 256) :
    IsValidSignatureEncoding ([a0, a1, a2, UInt8.ofNat R.length] ++ R ++
        [c0, UInt8.ofNat S.length] ++ S ++ [t]) = true ↔
      R.length + S.length + 7 ≤ 73 ∧ a0 = 0x30 ∧ a1.toNat = R.length + S.length + 4 ∧
        a2 = 0x02 ∧ IsDERInteger R = true ∧ c0 = 0x02 ∧ IsDERInteger S = true := by
  have h3 : (UInt8.ofNat R.length).toNat = R.length := by
    rw [UInt8.toNat_ofNat']
    exact Nat.mod_eq_of_lt hR
  have h5 : (UInt8.ofNat S.length).toNat = S.length := by
    rw [UInt8.toNat_ofNat']
    exact Nat.mod_eq_of_lt hS
  have hGet3 : ([a0, a1, a2, UInt8.ofNat R.length] ++ R ++ [c0, UInt8.ofNat S.length] ++ S ++
      [t]).getD 3 0 = UInt8.ofNat R.length := by simp
  have hNonempty : ∀ X : valtype, IsDERInteger X = true → 1 ≤ X.length := by
    intro X hX
    cases X with
    | nil => simp [IsDERInteger] at hX
    | cons b X => simp
  rw [IsValidSignatureEncoding_eq_true_iff, length_frame, hGet3, h3, frame_getD_lenS, h5,
    integerChecks_frame_R, integerChecks_frame_S]
  simp only [List.getD_cons_zero, List.cons_append, List.getD_cons_succ, Bool.and_eq_true,
    beq_iff_eq]
  constructor
  · rintro ⟨-, hMax, hHead, hTotal, -, -, ⟨hTagR, hDerR⟩, hTagS, hDerS⟩
    exact ⟨hMax, hHead, by omega, hTagR, hDerR, hTagS, hDerS⟩
  · rintro ⟨hMax, hHead, hTotal, hTagR, hDerR, hTagS, hDerS⟩
    have hOneR := hNonempty R hDerR
    have hOneS := hNonempty S hDerS
    exact ⟨by omega, hMax, hHead, by omega, by omega, trivial, ⟨hTagR, hDerR⟩, hTagS, hDerS⟩

end Frame

/-! ## The strict DER signatures -/

/-- An accepted string is a strict DER signature: cut where the function
reads its lengths, its fields are those of `derSignature`. -/
theorem derSignature_of_valid {sig : valtype} (hValid : IsValidSignatureEncoding sig = true) :
    9 ≤ sig.length ∧ sig.length ≤ 73 ∧
      ∃ R S h, IsDERInteger R = true ∧ IsDERInteger S = true ∧
        sig = derSignature (UInt8.ofNat (sig.length - 3)) R S h := by
  obtain ⟨hMin, hMax, -, -, -, hSum, -, -⟩ := (IsValidSignatureEncoding_eq_true_iff sig).1 hValid
  refine ⟨hMin, hMax, ?_⟩
  obtain ⟨a0, a1, a2, a3, R, c0, c1, S, t, rfl, hR, hS⟩ := exists_frame sig _ _ hSum.symm
  have hGet3 : ([a0, a1, a2, a3] ++ R ++ [c0, c1] ++ S ++ [t]).getD 3 0 = a3 := by simp
  rw [hGet3] at hR hS
  rw [← hR, frame_getD_lenS] at hS
  obtain rfl : a3 = UInt8.ofNat R.length := by rw [hR, UInt8.ofNat_toNat]
  obtain rfl : c1 = UInt8.ofNat S.length := by rw [hS, UInt8.ofNat_toNat]
  rw [length_frame] at hMax
  obtain ⟨-, rfl, hTotal, rfl, hDerR, rfl, hDerS⟩ :=
    (IsValidSignatureEncoding_frame a0 a1 a2 c0 t R S (by omega) (by omega)).1 hValid
  refine ⟨R, S, t, hDerR, hDerS, ?_⟩
  have hL : UInt8.ofNat (R.length + S.length + 7 - 3) = a1 := by
    rw [show R.length + S.length + 7 - 3 = a1.toNat by omega, UInt8.ofNat_toNat]
  rw [derSignature, length_frame, hL]

/-- A strict DER signature of at most 73 bytes is accepted. -/
theorem valid_derSignature {R S : valtype} {h : UInt8} (hDerR : IsDERInteger R = true)
    (hDerS : IsDERInteger S = true) (hMax : R.length + S.length + 7 ≤ 73) :
    IsValidSignatureEncoding
      (derSignature (UInt8.ofNat (R.length + S.length + 4)) R S h) = true := by
  have hTotal : (UInt8.ofNat (R.length + S.length + 4)).toNat = R.length + S.length + 4 := by
    rw [UInt8.toNat_ofNat']
    exact Nat.mod_eq_of_lt (by omega)
  exact (IsValidSignatureEncoding_frame _ _ _ _ _ R S (by omega) (by omega)).2
    ⟨hMax, rfl, hTotal, rfl, hDerR, rfl, hDerS⟩

example : IsValidSignatureEncoding (derSignature 7 [0x00, 0x80] [0x7f] 0x01) = true ∧
    IsValidSignatureEncoding (derSignature 7 [0x00, 0x7f] [0x7f] 0x01) = false := by decide

/-- **Strict DER.** `IsValidSignatureEncoding` accepts a byte string exactly
when it has 9 to 73 bytes and is `0x30 L 0x02 lenR R 0x02 lenS S h` with `L`
the size less three and `R`, `S` the shortest encodings of non-negative
integers; and every byte it reads lies inside the string. -/
theorem isValidSignatureEncoding_strictDER :
    (∀ sig : valtype, IsValidSignatureEncoding sig = true ↔
      9 ≤ sig.length ∧ sig.length ≤ 73 ∧
        ∃ R S h, IsDERInteger R = true ∧ IsDERInteger S = true ∧
          sig = derSignature (UInt8.ofNat (sig.length - 3)) R S h) ∧
    (∀ sig : valtype, IsValidSignatureEncodingReads sig = some (IsValidSignatureEncoding sig)) := by
  refine ⟨fun sig => ⟨derSignature_of_valid, ?_⟩, IsValidSignatureEncodingReads_eq⟩
  rintro ⟨-, hMax, R, S, h, hDerR, hDerS, hSig⟩
  have hLen : sig.length = R.length + S.length + 7 := by
    rw [hSig, derSignature]
    simp only [List.length_append, List.length_cons, List.length_nil]
    omega
  rw [hSig, hLen, show R.length + S.length + 7 - 3 = R.length + S.length + 4 by omega]
  exact valid_derSignature hDerR hDerS (by omega)

end FairCoin.Ports.SigEncoding
