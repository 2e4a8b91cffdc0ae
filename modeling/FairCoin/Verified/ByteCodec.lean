import Mathlib

/-!
# Byte codecs with a prefix reader

A serializer is injective when its output can be parsed back. This module
packages an encoder with a *prefix reader*: a function that, given any byte
stream starting with the encoding of a value, returns that value and the rest
of the stream. From this one law follow injectivity of the encoder and the
unique decomposition of concatenations, which is how a hash preimage written
field after field is shown to determine every field it contains.

The reader is a proof device: it need not be the parser a program uses, only
a function that inverts the encoder on every stream that starts with an
encoding. Every combinator below builds the reader together with the encoder,
so injectivity of a composite serializer costs no induction beyond the one
inside `readN_encode`.

## Main results

* `Codec.encode_append_inj` — two equal streams that begin with encodings of
  valid values begin with the same value and continue with the same bytes.
* `Codec.encodeIf_append_inj` — the same for a part written only when a flag
  is set: the tails agree, and the parts agree whenever the flag is set.
* `leValue_leBytes` — a little-endian word reads back modulo its width.
* `Codec.prod`, `Codec.list`, `Codec.map`, `leWord`, `bitVec` — the codecs
  that serializers are assembled from.
-/

namespace FairCoin.Verified.ByteCodec

/-! ## Codecs -/

/-- An encoder for the values satisfying `Valid`, with a reader that recovers
such a value from any stream that begins with its encoding. -/
structure Codec (α : Type) where
  encode : α → List UInt8
  read : List UInt8 → Option (α × List UInt8)
  Valid : α → Prop
  read_encode : ∀ a rest, Valid a → read (encode a ++ rest) = some (a, rest)

namespace Codec

variable {α β : Type}

/-- **Unique decomposition.** Agreeing streams that start with encodings of
valid values start with the same value and continue identically. -/
theorem encode_append_inj (c : Codec α) {a b : α} {r s : List UInt8}
    (ha : c.Valid a) (hb : c.Valid b) (h : c.encode a ++ r = c.encode b ++ s) :
    a = b ∧ r = s := by
  have hRead : some (a, r) = some (b, s) := by
    rw [← c.read_encode a r ha, ← c.read_encode b s hb, h]
  simp only [Option.some.injEq, Prod.mk.injEq] at hRead
  exact hRead

/-! ## Parts written under a flag -/

/-- The bytes of a part that a serializer writes only when its flag is set. -/
def encodeIf (c : Codec α) (flag : Bool) (a : α) : List UInt8 :=
  if flag then c.encode a else []

@[simp] theorem encodeIf_true (c : Codec α) (a : α) : c.encodeIf true a = c.encode a := rfl

@[simp] theorem encodeIf_false (c : Codec α) (a : α) : c.encodeIf false a = [] := rfl

/-- Under a fixed flag, a flagged part followed by a tail decomposes uniquely:
the tails agree, and the parts agree when they were written. -/
theorem encodeIf_append_inj (c : Codec α) {flag : Bool} {a b : α} {r s : List UInt8}
    (ha : c.Valid a) (hb : c.Valid b) (h : c.encodeIf flag a ++ r = c.encodeIf flag b ++ s) :
    (flag = true → a = b) ∧ r = s := by
  cases flag with
  | false =>
    refine ⟨fun hFlag => absurd hFlag Bool.false_ne_true, ?_⟩
    simpa using h
  | true =>
    have hParts := c.encode_append_inj ha hb (by simpa using h)
    exact ⟨fun _ => hParts.1, hParts.2⟩

/-! ## Combinators -/

/-- Transport a codec along `f`, encoding through a right inverse `g`. -/
def map (c : Codec α) (f : α → β) (g : β → α) (hfg : ∀ b, f (g b) = b) : Codec β where
  encode b := c.encode (g b)
  read bs := (c.read bs).map fun p => (f p.1, p.2)
  Valid b := c.Valid (g b)
  read_encode b rest hb := by simp [c.read_encode (g b) rest hb, hfg]

/-- The same codec with its encoder replaced by an equal function, so that the
encoder can be, syntactically, a serializer written elsewhere. -/
def withEncode (c : Codec α) (e : α → List UInt8) (h : ∀ a, c.encode a = e a) : Codec α where
  encode := e
  read := c.read
  Valid := c.Valid
  read_encode a rest ha := by
    rw [← h a]
    exact c.read_encode a rest ha

@[simp] theorem withEncode_encode (c : Codec α) (e : α → List UInt8) (h : ∀ a, c.encode a = e a) :
    (c.withEncode e h).encode = e := rfl

@[simp] theorem withEncode_valid (c : Codec α) (e : α → List UInt8) (h : ∀ a, c.encode a = e a) :
    (c.withEncode e h).Valid = c.Valid := rfl

/-- Two values written one after the other. -/
def prod (c : Codec α) (d : Codec β) : Codec (α × β) where
  encode p := c.encode p.1 ++ d.encode p.2
  read bs := (c.read bs).bind fun p =>
    (d.read p.2).map fun q => ((p.1, q.1), q.2)
  Valid p := c.Valid p.1 ∧ d.Valid p.2
  read_encode p rest hp := by
    simp [List.append_assoc, c.read_encode _ _ hp.1, d.read_encode _ _ hp.2]

/-- Read `n` values one after another. -/
def readN (c : Codec α) : Nat → List UInt8 → Option (List α × List UInt8)
  | 0, bs => some ([], bs)
  | n + 1, bs => (c.read bs).bind fun p =>
    (c.readN n p.2).map fun q => (p.1 :: q.1, q.2)

theorem readN_encode (c : Codec α) (as : List α) (rest : List UInt8)
    (h : ∀ a ∈ as, c.Valid a) :
    c.readN as.length (as.flatMap c.encode ++ rest) = some (as, rest) := by
  induction as with
  | nil => rfl
  | cons a as ih =>
    have hHead : c.Valid a := h a (by simp)
    have hTail : ∀ x ∈ as, c.Valid x := fun x hx => h x (by simp [hx])
    simp [readN, List.append_assoc, c.read_encode a _ hHead, ih hTail]

/-- A list written as its length in the codec `len`, then its elements. -/
def list (len : Codec Nat) (c : Codec α) : Codec (List α) where
  encode as := len.encode as.length ++ as.flatMap c.encode
  read bs := (len.read bs).bind fun p => c.readN p.1 p.2
  Valid as := len.Valid as.length ∧ ∀ a ∈ as, c.Valid a
  read_encode as rest h := by
    simp [List.append_assoc, len.read_encode _ _ h.1, c.readN_encode as rest h.2]

end Codec

/-! ## Fixed-width little-endian words -/

/-- The `w` low bytes of `n`, least significant first. -/
def leBytes : Nat → Nat → List UInt8
  | 0, _ => []
  | w + 1, n => UInt8.ofNat (n % 256) :: leBytes w (n / 256)

/-- The number a little-endian byte string denotes. -/
def leValue : List UInt8 → Nat
  | [] => 0
  | b :: bs => b.toNat + 256 * leValue bs

@[simp] theorem length_leBytes (w n : Nat) : (leBytes w n).length = w := by
  induction w generalizing n with
  | zero => rfl
  | succ w ih => simp [leBytes, ih]

theorem leValue_leBytes (w n : Nat) : leValue (leBytes w n) = n % 256 ^ w := by
  induction w generalizing n with
  | zero => simp [leBytes, leValue, Nat.mod_one]
  | succ w ih =>
    have hByte : (UInt8.ofNat (n % 256)).toNat = n % 256 := by
      rw [UInt8.toNat_ofNat']
      omega
    calc leValue (leBytes (w + 1) n)
        = n % 256 + 256 * (n / 256 % 256 ^ w) := by simp only [leBytes, leValue, hByte, ih]
      _ = n % (256 * 256 ^ w) := Nat.mod_mul.symm
      _ = n % 256 ^ (w + 1) := by rw [Nat.pow_succ, Nat.mul_comm]

theorem leValue_lt (bs : List UInt8) : leValue bs < 256 ^ bs.length := by
  induction bs with
  | nil => simp [leValue]
  | cons b bs ih =>
    have hb := b.toNat_lt
    rw [leValue, List.length_cons, Nat.pow_succ]
    omega

/-- The bytes of a little-endian value are the bytes it was read from. -/
theorem leBytes_leValue (bs : List UInt8) : leBytes bs.length (leValue bs) = bs := by
  induction bs with
  | nil => rfl
  | cons b bs ih =>
    have hb := b.toNat_lt
    have hLow : (b.toNat + 256 * leValue bs) % 256 = b.toNat := by omega
    have hHigh : (b.toNat + 256 * leValue bs) / 256 = leValue bs := by omega
    rw [List.length_cons, leBytes, leValue, hLow, hHigh, ih, UInt8.ofNat_toNat]

theorem leValue_append (a b : List UInt8) :
    leValue (a ++ b) = leValue a + 256 ^ a.length * leValue b := by
  induction a with
  | nil => simp [leValue]
  | cons x a ih =>
    rw [List.cons_append, leValue, leValue, ih, List.length_cons, Nat.pow_succ]
    ring

/-- Numbers below `256 ^ w` as `w` little-endian bytes. -/
def leWord (w : Nat) : Codec Nat where
  encode := leBytes w
  read bs := if w ≤ bs.length then some (leValue (bs.take w), bs.drop w) else none
  Valid n := n < 256 ^ w
  read_encode n rest hn := by
    have hLen := length_leBytes w n
    simp [List.take_left' hLen, List.drop_left' hLen, leValue_leBytes, Nat.mod_eq_of_lt hn]

theorem leWord_read (w n : Nat) (rest : List UInt8) (h : n < 256 ^ w) :
    (leWord w).read (leBytes w n ++ rest) = some (n, rest) :=
  (leWord w).read_encode n rest h

/-- What the reader of `leWord w` accepts is a word followed by the rest. -/
theorem leWord_read_eq_some {w v : Nat} {bs rest : List UInt8}
    (h : (leWord w).read bs = some (v, rest)) : bs = leBytes w v ++ rest ∧ v < 256 ^ w := by
  simp only [leWord] at h
  split_ifs at h with hLen
  simp only [Option.some.injEq, Prod.mk.injEq] at h
  obtain ⟨rfl, rfl⟩ := h
  have hTake : (bs.take w).length = w := List.length_take_of_le hLen
  have hBytes : leBytes w (leValue (bs.take w)) = bs.take w := by
    have := leBytes_leValue (bs.take w)
    rwa [hTake] at this
  have hLt : leValue (bs.take w) < 256 ^ w := by
    have := leValue_lt (bs.take w)
    rwa [hTake] at this
  refine ⟨?_, hLt⟩
  rw [hBytes, List.take_append_drop]

/-- Bit vectors of `8 * w` bits as `w` little-endian bytes; every vector is
valid (`bitVec_valid`). -/
def bitVec (w : Nat) : Codec (BitVec (8 * w)) :=
  (leWord w).map (BitVec.ofNat (8 * w)) BitVec.toNat (fun b => by simp)

theorem bitVec_valid (w : Nat) (b : BitVec (8 * w)) : (bitVec w).Valid b := by
  show b.toNat < 256 ^ w
  have hPow : (256 : Nat) ^ w = 2 ^ (8 * w) := by rw [Nat.pow_mul]
  rw [hPow]
  exact b.isLt

/-! ## The top bit of a byte -/

theorem topBit_ne_zero (b : UInt8) : (b &&& 0x80 != 0) = decide (128 ≤ b.toNat) := by
  have hAll : ∀ x : Fin 256, (UInt8.ofNat x.val &&& 0x80 != 0) = decide (128 ≤ x.val) := by
    decide +kernel
  have h := hAll ⟨b.toNat, b.toNat_lt⟩
  rwa [UInt8.ofNat_toNat] at h

theorem lowBits_toNat (b : UInt8) : (b &&& 0x7f).toNat = b.toNat % 128 := by
  rw [UInt8.toNat_and]
  exact Nat.and_two_pow_sub_one_eq_mod b.toNat 7

theorem setTopBit_toNat (b : UInt8) (h : b.toNat < 128) : (b ||| 0x80).toNat = b.toNat + 128 := by
  have hAll : ∀ x : Fin 128, (UInt8.ofNat x.val ||| 0x80).toNat = x.val + 128 := by
    decide +kernel
  have hb := hAll ⟨b.toNat, h⟩
  rwa [UInt8.ofNat_toNat] at hb

end FairCoin.Verified.ByteCodec
