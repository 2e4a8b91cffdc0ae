import FairCoin.Verified.ByteBits
import FairCoin.Ports.Script
import FairCoin.Ports.Serialize

/-!
# Bloom filters (`bloom.cpp`)

A `CBloomFilter` sets `nHashFuncs` bits of `vData` for each key, bit `i` at
`MurmurHash3(i * 0xFBA4C795 + nTweak, key) % (8 * vData.size())`, and answers
`contains` from the same bits; `isFull` and `isEmpty` short-cut both.
`UpdateEmptyFull` recomputes the two flags from the bytes, and
`IsRelevantAndUpdate` may insert the outpoints of a matching transaction.

A `CRollingBloomFilter` keeps two such filters of `2 * nElements` keys,
clears them in turn at the counter values `0` and `nElements`, inserts into
both, and answers from the one cleared longer ago.

MurmurHash3, `CTransaction::GetHash` and the `Solver` test are parameters.
The sizes the constructors compute in `double` are taken as given: the bit
count `nFilterBits` of `-1 / LN2SQUARED * nElements * log(nFPRate)`, and
`(unsigned int)(q * LN2)` is `lnTwoTimes q`.

## Main results

* `bloom_no_false_negatives` — a filter with at least one hash function
  contains every key inserted since its last `clear` or `reset`, over any
  calls of `insert`, `IsRelevantAndUpdate` and `UpdateEmptyFull`.
* `bloom_updateEmptyFull_forgets` — a rolling filter for `2 ^ 31 + 1` keys
  loses the third key back; with no hash function, or received with
  `isFull` set, `UpdateEmptyFull` after an insert loses the key.
* `rolling_contains_last` — a rolling filter for `1 ≤ nElements < 2 ^ 31`
  contains each of the last `nElements` keys inserted.
-/

namespace FairCoin.Ports.Bloom

open FairCoin.Verified.ByteBits FairCoin.Ports.Primitives FairCoin.Ports.Script
  FairCoin.Ports.Serialize

def MAX_BLOOM_FILTER_SIZE : Nat := 36000
def MAX_HASH_FUNCS : Nat := 50

def BLOOM_UPDATE_NONE : UInt8 := 0
def BLOOM_UPDATE_ALL : UInt8 := 1
def BLOOM_UPDATE_P2PUBKEY_ONLY : UInt8 := 2
def BLOOM_UPDATE_MASK : UInt8 := 3

/-- `(unsigned int)(q * LN2)`, with `LN2` as `bloom.cpp` writes it. -/
def lnTwoTimes (q : Nat) : Nat :=
  q * 6931471805599453094172321214581765680755001343602552 / 10 ^ 52

/-- `CBloomFilter`. -/
structure CBloomFilter where
  vData : List UInt8
  isFull : Bool
  isEmpty : Bool
  nHashFuncs : Nat
  nTweak : UInt32
  nFlags : UInt8
  deriving DecidableEq, Repr

/-- The bytes of a serialized `COutPoint`: the hash, then `n`. -/
def serOutPoint (outpoint : COutPoint) : List UInt8 := serUint256 outpoint.hash ++ ser32 outpoint.n

namespace CBloomFilter

/-- The public constructor, for the bit count `nFilterBits` its `double`
formula gives. -/
def create (nElements nFilterBits : Nat) (nTweakIn : UInt32) (nFlagsIn : UInt8) :
    CBloomFilter :=
  let vData := List.replicate (min nFilterBits (MAX_BLOOM_FILTER_SIZE * 8) / 8) 0
  { vData, isFull := false, isEmpty := false,
    nHashFuncs := min (lnTwoTimes (vData.length * 8 / nElements)) MAX_HASH_FUNCS,
    nTweak := nTweakIn, nFlags := nFlagsIn }

/-- The private constructor `CRollingBloomFilter` uses: no size limits, and
empty. -/
def createRolling (nElements nFilterBits : Nat) (nTweakIn : UInt32) : CBloomFilter :=
  let vData := List.replicate (nFilterBits / 8) 0
  { vData, isFull := false, isEmpty := true,
    nHashFuncs := lnTwoTimes (vData.length * 8 / nElements),
    nTweak := nTweakIn, nFlags := BLOOM_UPDATE_NONE }

variable (murmur : UInt32 → List UInt8 → UInt32)

/-- `CBloomFilter::Hash`. -/
def Hash (f : CBloomFilter) (nHashNum : Nat) (vDataToHash : List UInt8) : Nat :=
  (murmur (UInt32.ofNat nHashNum * 0xFBA4C795 + f.nTweak) vDataToHash).toNat %
    (f.vData.length * 8)

/-- `CBloomFilter::insert`: the key's bits are set, unless the filter is
full. -/
def insert (f : CBloomFilter) (vKey : List UInt8) : CBloomFilter :=
  if f.isFull then f
  else
    { f with
      vData := (List.range f.nHashFuncs).foldl (fun v i => setBitAt v (f.Hash murmur i vKey)) f.vData
      isEmpty := false }

/-- `CBloomFilter::contains`. -/
def contains (f : CBloomFilter) (vKey : List UInt8) : Bool :=
  if f.isFull then true
  else if f.isEmpty then false
  else (List.range f.nHashFuncs).all fun i => bitAt f.vData (f.Hash murmur i vKey)

/-- `CBloomFilter::clear`. -/
def clear (f : CBloomFilter) : CBloomFilter :=
  { f with vData := List.replicate f.vData.length 0, isFull := false, isEmpty := true }

/-- `CBloomFilter::reset`. -/
def reset (f : CBloomFilter) (nNewTweak : UInt32) : CBloomFilter :=
  { f.clear with nTweak := nNewTweak }

/-- `CBloomFilter::UpdateEmptyFull`. -/
def UpdateEmptyFull (f : CBloomFilter) : CBloomFilter :=
  { f with isFull := f.vData.all (· == 0xff), isEmpty := f.vData.all (· == 0) }

/-- The scan `while (pc < end)` over the pushes of a script: whether a
non-empty push is in the filter. -/
def containsPush (f : CBloomFilter) : Nat → CScript → Bool
  | 0, _ => false
  | fuel + 1, script =>
    match GetOp script with
    | none => false
    | some (_, data, rest) =>
      if data.length ≠ 0 && f.contains murmur data then true
      else containsPush f fuel rest

variable (isPubKeyOrMultisig : CScript → Bool)

/-- The loop of `IsRelevantAndUpdate` over outputs: a matching output sets
`fFound` and, as `nFlags` says, inserts its outpoint. -/
def matchOutputs (hash : uint256) : Nat → List CTxOut → CBloomFilter → Bool → CBloomFilter × Bool
  | _, [], f, fFound => (f, fFound)
  | i, txout :: vout, f, fFound =>
    if f.containsPush murmur (txout.scriptPubKey.length + 1) txout.scriptPubKey then
      let outpoint := serOutPoint ⟨hash, UInt32.ofNat i⟩
      let f :=
        if f.nFlags &&& BLOOM_UPDATE_MASK = BLOOM_UPDATE_ALL then f.insert murmur outpoint
        else if f.nFlags &&& BLOOM_UPDATE_MASK = BLOOM_UPDATE_P2PUBKEY_ONLY &&
            isPubKeyOrMultisig txout.scriptPubKey then f.insert murmur outpoint
        else f
      matchOutputs hash (i + 1) vout f true
    else matchOutputs hash (i + 1) vout f fFound

/-- The loop of `IsRelevantAndUpdate` over inputs: a spent outpoint or a push
of a `scriptSig` in the filter. -/
def matchInputs (f : CBloomFilter) : List CTxIn → Bool
  | [] => false
  | txin :: vin =>
    f.contains murmur (serOutPoint txin.prevout) ||
      f.containsPush murmur (txin.scriptSig.length + 1) txin.scriptSig || matchInputs f vin

variable (GetHash : CTransaction → uint256)

/-- `CBloomFilter::IsRelevantAndUpdate`: whether the transaction matches, and
the filter with the outpoints it inserted. -/
def IsRelevantAndUpdate (f : CBloomFilter) (tx : CTransaction) : Bool × CBloomFilter :=
  if f.isFull then (true, f)
  else if f.isEmpty then (false, f)
  else
    let hash := GetHash tx
    let (f, fFound) := matchOutputs murmur isPubKeyOrMultisig hash 0 tx.vout f
      (f.contains murmur (serUint256 hash))
    if fFound then (true, f) else (matchInputs murmur f tx.vin, f)

end CBloomFilter

/-- `CRollingBloomFilter`. -/
structure CRollingBloomFilter where
  nBloomSize : Nat
  nInsertions : Nat
  b1 : CBloomFilter
  b2 : CBloomFilter
  deriving DecidableEq, Repr

namespace CRollingBloomFilter

/-- `CRollingBloomFilter::reset`, with `GetRand`'s tweak as an argument. -/
def reset (r : CRollingBloomFilter) (nNewTweak : UInt32) : CRollingBloomFilter :=
  { r with b1 := r.b1.reset nNewTweak, b2 := r.b2.reset nNewTweak, nInsertions := 0 }

/-- The constructor: two filters of `nElements * 2` keys in `unsigned int`,
for the bit count `nFilterBits` their `double` formula gives. -/
def create (nElements nFilterBits : Nat) (nNewTweak : UInt32) : CRollingBloomFilter :=
  let b := CBloomFilter.createRolling (nElements * 2 % 2 ^ 32) nFilterBits 0
  reset ⟨nElements * 2 % 2 ^ 32, 0, b, b⟩ nNewTweak

variable (murmur : UInt32 → List UInt8 → UInt32)

/-- `CRollingBloomFilter::insert`: the first filter is cleared at count zero
and the second at half the size; the key goes into both. -/
def insert (r : CRollingBloomFilter) (vKey : List UInt8) : CRollingBloomFilter :=
  let b1 := if r.nInsertions = 0 then r.b1.clear else r.b1
  let b2 := if r.nInsertions ≠ 0 ∧ r.nInsertions = r.nBloomSize / 2 then r.b2.clear else r.b2
  let nInsertions := (r.nInsertions + 1) % 2 ^ 32
  { r with b1 := b1.insert murmur vKey, b2 := b2.insert murmur vKey,
           nInsertions := if nInsertions = r.nBloomSize then 0 else nInsertions }

/-- `CRollingBloomFilter::contains`. -/
def contains (r : CRollingBloomFilter) (vKey : List UInt8) : Bool :=
  if r.nInsertions < r.nBloomSize / 2 then r.b2.contains murmur vKey else r.b1.contains murmur vKey

end CRollingBloomFilter

/-! ## What one call does to the filter -/

namespace CBloomFilter

variable (murmur : UInt32 → List UInt8 → UInt32) {f : CBloomFilter}

@[simp] theorem length_insert (vKey : List UInt8) :
    (f.insert murmur vKey).vData.length = f.vData.length := by
  unfold insert
  split <;> simp

@[simp] theorem isFull_insert (vKey : List UInt8) : (f.insert murmur vKey).isFull = f.isFull := by
  unfold insert
  split <;> simp

@[simp] theorem nHashFuncs_insert (vKey : List UInt8) :
    (f.insert murmur vKey).nHashFuncs = f.nHashFuncs := by
  unfold insert
  split <;> simp

@[simp] theorem nTweak_insert (vKey : List UInt8) : (f.insert murmur vKey).nTweak = f.nTweak := by
  unfold insert
  split <;> simp

theorem Hash_lt (hData : 0 < f.vData.length) (i : Nat) (vKey : List UInt8) :
    f.Hash murmur i vKey < f.vData.length * 8 :=
  Nat.mod_lt _ (by omega)

/-- An inserted key is contained. -/
theorem contains_insert_self (hData : 0 < f.vData.length) (vKey : List UInt8) :
    (f.insert murmur vKey).contains murmur vKey = true := by
  by_cases hFull : f.isFull = true
  · simp [contains, hFull]
  · have hIns : f.insert murmur vKey = { f with
        vData := (List.range f.nHashFuncs).foldl
          (fun v i => setBitAt v (f.Hash murmur i vKey)) f.vData
        isEmpty := false } := by
      simp [insert, hFull]
    rw [hIns]
    simp only [contains, hFull, Bool.false_eq_true, if_false, List.all_eq_true]
    intro i hi
    have hBit := bitAt_foldl_of_mem (fun i => f.Hash murmur i vKey) hi (Hash_lt murmur hData i vKey)
    simp only [Hash, length_foldl_setBitAt] at hBit ⊢
    exact hBit

/-- An insert keeps every key that was contained. -/
theorem contains_insert_of_contains {vKey : List UInt8} (h : f.contains murmur vKey = true)
    (vKey' : List UInt8) : (f.insert murmur vKey').contains murmur vKey = true := by
  by_cases hFull : f.isFull = true
  · simp [contains, hFull]
  · have hEmpty : f.isEmpty = false := by
      by_contra hE
      simp [contains, hFull, hE] at h
    simp only [contains, hFull, hEmpty, Bool.false_eq_true, if_false, List.all_eq_true] at h
    simp only [insert, hFull, Bool.false_eq_true, if_false, contains, List.all_eq_true]
    intro i hi
    have hBit := bitAt_foldl_of_bitAt (fun i => f.Hash murmur i vKey') (List.range f.nHashFuncs)
      (h i hi)
    simp only [Hash, length_foldl_setBitAt] at hBit ⊢
    exact hBit

/-- After inserting a list of keys, each of them and each key contained
before is contained. -/
theorem contains_foldl_insert (hData : 0 < f.vData.length) (keys : List (List UInt8))
    {vKey : List UInt8} (h : vKey ∈ keys ∨ f.contains murmur vKey = true) :
    (keys.foldl (insert murmur) f).contains murmur vKey = true := by
  induction keys generalizing f with
  | nil => simpa using h
  | cons k keys ih =>
    rw [List.foldl_cons]
    refine ih (by simpa using hData) ?_
    rcases h with hMem | hIn
    · rcases List.mem_cons.1 hMem with rfl | hMem
      · exact Or.inr (contains_insert_self murmur hData vKey)
      · exact Or.inl hMem
    · exact Or.inr (contains_insert_of_contains murmur hIn k)

@[simp] theorem length_foldl_insert (keys : List (List UInt8)) :
    (keys.foldl (insert murmur) f).vData.length = f.vData.length := by
  induction keys generalizing f with
  | nil => rfl
  | cons k keys ih => rw [List.foldl_cons, ih, length_insert]

@[simp] theorem nHashFuncs_foldl_insert (keys : List (List UInt8)) :
    (keys.foldl (insert murmur) f).nHashFuncs = f.nHashFuncs := by
  induction keys generalizing f with
  | nil => rfl
  | cons k keys ih => rw [List.foldl_cons, ih, nHashFuncs_insert]

/-- `isFull` is set only over a vector of `0xff` bytes: the constructors,
`clear` and `UpdateEmptyFull` leave it so, and `insert` keeps it. -/
def Truthful (f : CBloomFilter) : Prop := f.isFull = true → ∀ b ∈ f.vData, b = 0xff

theorem truthful_insert (hT : f.Truthful) (vKey : List UInt8) : (f.insert murmur vKey).Truthful := by
  unfold insert
  split
  · exact hT
  · next hFull => exact fun h => absurd h hFull

theorem truthful_foldl_insert (hT : f.Truthful) (keys : List (List UInt8)) :
    (keys.foldl (insert murmur) f).Truthful := by
  induction keys generalizing f with
  | nil => exact hT
  | cons k keys ih => exact ih (truthful_insert murmur hT k)

theorem truthful_clear (f : CBloomFilter) : f.clear.Truthful := by
  intro h
  simp [clear] at h

theorem truthful_UpdateEmptyFull (f : CBloomFilter) : f.UpdateEmptyFull.Truthful := by
  intro h b hb
  simp only [UpdateEmptyFull, List.all_eq_true, beq_iff_eq] at h
  exact h b hb

/-- `UpdateEmptyFull` keeps every contained key, given one hash function:
a contained key has a set bit, so the vector is not all zero. -/
theorem contains_UpdateEmptyFull (hT : f.Truthful) (hFuncs : 0 < f.nHashFuncs)
    {vKey : List UInt8} (h : f.contains murmur vKey = true) :
    f.UpdateEmptyFull.contains murmur vKey = true := by
  by_cases hAllFull : f.vData.all (· == 0xff) = true
  · simp [contains, UpdateEmptyFull, hAllFull]
  have hFull : f.isFull = false := by
    by_contra hF
    exact hAllFull (by simpa using hT (by simpa using hF))
  have hEmpty : f.isEmpty = false := by
    by_contra hE
    simp [contains, hFull, hE] at h
  simp only [contains, hFull, hEmpty, Bool.false_eq_true, if_false, List.all_eq_true] at h
  obtain ⟨b, hb, hNe⟩ := exists_ne_zero_of_bitAt (h 0 (List.mem_range.2 hFuncs))
  have hNotEmpty : f.vData.all (· == 0) = false := by
    rw [Bool.eq_false_iff]
    intro hAll
    exact hNe (by simpa using List.all_eq_true.1 hAll b hb)
  simp only [contains, UpdateEmptyFull, Bool.not_eq_true] at hAllFull ⊢
  simp only [hAllFull, hNotEmpty, Bool.false_eq_true, if_false, List.all_eq_true]
  intro i hi
  exact h i hi

end CBloomFilter

/-! ## Runs of a filter -/

namespace CBloomFilter

variable (murmur : UInt32 → List UInt8 → UInt32) (isPubKeyOrMultisig : CScript → Bool)
  (GetHash : CTransaction → uint256)

/-- The outpoints the loop over outputs of `IsRelevantAndUpdate` inserts, in
order: that of each matching output, as `nFlags` says. -/
def outputKeys (hash : uint256) : Nat → List CTxOut → CBloomFilter → List (List UInt8)
  | _, [], _ => []
  | i, txout :: vout, f =>
    if f.containsPush murmur (txout.scriptPubKey.length + 1) txout.scriptPubKey then
      let outpoint := serOutPoint ⟨hash, UInt32.ofNat i⟩
      let pre : List (List UInt8) :=
        if f.nFlags &&& BLOOM_UPDATE_MASK = BLOOM_UPDATE_ALL then [outpoint]
        else if f.nFlags &&& BLOOM_UPDATE_MASK = BLOOM_UPDATE_P2PUBKEY_ONLY &&
            isPubKeyOrMultisig txout.scriptPubKey then [outpoint]
        else []
      pre ++ outputKeys hash (i + 1) vout (pre.foldl (insert murmur) f)
    else outputKeys hash (i + 1) vout f

/-- The keys `IsRelevantAndUpdate` inserts: none into a full or an empty
filter. -/
def relevantKeys (f : CBloomFilter) (tx : CTransaction) : List (List UInt8) :=
  if f.isFull then []
  else if f.isEmpty then []
  else outputKeys murmur isPubKeyOrMultisig (GetHash tx) 0 tx.vout f

/-- The loop over outputs only inserts its keys. -/
theorem matchOutputs_fst (hash : uint256) (vout : List CTxOut) :
    ∀ i f fFound, (matchOutputs murmur isPubKeyOrMultisig hash i vout f fFound).1 =
      (outputKeys murmur isPubKeyOrMultisig hash i vout f).foldl (insert murmur) f := by
  induction vout with
  | nil => exact fun i f fFound => rfl
  | cons txout vout ih =>
    intro i f fFound
    rw [matchOutputs, outputKeys]
    split
    · -- a match inserts the outpoint, or nothing, and the loop goes on
      rw [ih, List.foldl_append]
      split_ifs <;> rfl
    · exact ih (i + 1) f fFound

/-- `IsRelevantAndUpdate` changes the filter only by inserting its keys. -/
theorem IsRelevantAndUpdate_snd (f : CBloomFilter) (tx : CTransaction) :
    (f.IsRelevantAndUpdate murmur isPubKeyOrMultisig GetHash tx).2 =
      (relevantKeys murmur isPubKeyOrMultisig GetHash f tx).foldl (insert murmur) f := by
  unfold IsRelevantAndUpdate relevantKeys
  split
  · rfl
  split
  · rfl
  dsimp only
  split <;> exact matchOutputs_fst murmur isPubKeyOrMultisig _ _ _ _ _

/-- The filters a sequence of calls reaches from `f₀`, with the keys inserted
since the last `clear` or `reset`, by `insert` or by `IsRelevantAndUpdate`. -/
inductive Reachable (f₀ : CBloomFilter) : CBloomFilter → List (List UInt8) → Prop
  | start : Reachable f₀ f₀ []
  | insert {f : CBloomFilter} {S : List (List UInt8)} (vKey : List UInt8) :
      Reachable f₀ f S → Reachable f₀ (f.insert murmur vKey) (vKey :: S)
  | isRelevantAndUpdate {f : CBloomFilter} {S : List (List UInt8)} (tx : CTransaction) :
      Reachable f₀ f S →
      Reachable f₀ (f.IsRelevantAndUpdate murmur isPubKeyOrMultisig GetHash tx).2
        (relevantKeys murmur isPubKeyOrMultisig GetHash f tx ++ S)
  | updateEmptyFull {f : CBloomFilter} {S : List (List UInt8)} :
      Reachable f₀ f S → Reachable f₀ f.UpdateEmptyFull S
  | clear {f : CBloomFilter} {S : List (List UInt8)} : Reachable f₀ f S → Reachable f₀ f.clear []
  | reset {f : CBloomFilter} {S : List (List UInt8)} (nNewTweak : UInt32) :
      Reachable f₀ f S → Reachable f₀ (f.reset nNewTweak) []

/-- What holds along a run: `isFull` is truthful, the size and the number of
hash functions are the initial ones, and every key inserted since the last
clear is contained. -/
structure RunInv (f₀ f : CBloomFilter) (S : List (List UInt8)) : Prop where
  truthful : f.Truthful
  length_eq : f.vData.length = f₀.vData.length
  nHashFuncs_eq : f.nHashFuncs = f₀.nHashFuncs
  contains_eq : ∀ vKey ∈ S, f.contains murmur vKey = true

variable {murmur isPubKeyOrMultisig GetHash}

theorem Reachable.runInv {f₀ f : CBloomFilter} {S : List (List UInt8)}
    (hFuncs : 0 < f₀.nHashFuncs) (hData : 0 < f₀.vData.length) (hT : f₀.Truthful)
    (hRun : Reachable murmur isPubKeyOrMultisig GetHash f₀ f S) : RunInv murmur f₀ f S := by
  induction hRun with
  | start => exact ⟨hT, rfl, rfl, fun _ h => absurd h (by simp)⟩
  | insert vKey _ ih =>
    refine ⟨truthful_insert murmur ih.truthful vKey, by simp [ih.length_eq],
      by simp [ih.nHashFuncs_eq], fun k hk => ?_⟩
    rcases List.mem_cons.1 hk with rfl | hMem
    · exact contains_insert_self murmur (by rw [ih.length_eq]; exact hData) k
    · exact contains_insert_of_contains murmur (ih.contains_eq k hMem) vKey
  | @isRelevantAndUpdate f _ tx _ ih =>
    rw [IsRelevantAndUpdate_snd]
    refine ⟨truthful_foldl_insert murmur ih.truthful _, by simp [ih.length_eq],
      by simp [ih.nHashFuncs_eq], fun k hk => ?_⟩
    refine contains_foldl_insert murmur (by rw [ih.length_eq]; exact hData) _ ?_
    rcases List.mem_append.1 hk with hMem | hMem
    · exact Or.inl hMem
    · exact Or.inr (ih.contains_eq k hMem)
  | updateEmptyFull _ ih =>
    exact ⟨truthful_UpdateEmptyFull _, ih.length_eq, ih.nHashFuncs_eq, fun k hk =>
      contains_UpdateEmptyFull murmur ih.truthful (by rw [ih.nHashFuncs_eq]; exact hFuncs)
        (ih.contains_eq k hk)⟩
  | clear _ ih =>
    exact ⟨truthful_clear _, List.length_replicate.trans ih.length_eq, ih.nHashFuncs_eq,
      fun _ h => absurd h (by simp)⟩
  | reset nNewTweak _ ih =>
    exact ⟨truthful_clear _, List.length_replicate.trans ih.length_eq, ih.nHashFuncs_eq,
      fun _ h => absurd h (by simp)⟩

end CBloomFilter

/-! ## The rolling window -/

namespace CRollingBloomFilter

open CBloomFilter

variable {murmur : UInt32 → List UInt8 → UInt32}

/-- A filter that contains the first `a` keys of `S` contains, after one more
insert, the first `a + 1` keys of `vKey :: S`. -/
theorem contains_take_insert {g : CBloomFilter} (hData : 0 < g.vData.length)
    {S : List (List UInt8)} {a a' : Nat} (h : ∀ x ∈ S.take a, g.contains murmur x = true)
    (ha : a' ≤ a + 1) (vKey : List UInt8) :
    ∀ x ∈ (vKey :: S).take a', (g.insert murmur vKey).contains murmur x = true := by
  intro x hx
  cases a' with
  | zero => simp at hx
  | succ a' =>
    rw [List.take_succ_cons] at hx
    rcases List.mem_cons.1 hx with rfl | hMem
    · exact contains_insert_self murmur hData x
    · exact contains_insert_of_contains murmur
        (h x (List.take_subset_take_left S (by omega) hMem)) vKey

/-- How many of the latest keys the first filter holds at counter `c`: it was
cleared `c` inserts ago, or a whole period `2 * n` ago at `c = 0`. -/
def window1 (n c : Nat) : Nat := if c = 0 then 2 * n else c

/-- How many of the latest keys the second filter holds at counter `c`: it is
cleared at `c = n`. -/
def window2 (n c : Nat) : Nat := if n < c then c - n else c + n

/-- The state of a rolling filter for `n` keys after the keys `S` (latest
first) since its reset. -/
structure WindowInv (murmur : UInt32 → List UInt8 → UInt32) (n : Nat) (r : CRollingBloomFilter)
    (S : List (List UInt8)) : Prop where
  size_eq : r.nBloomSize = 2 * n
  lt_size : r.nInsertions < 2 * n
  length_b1 : 0 < r.b1.vData.length
  length_b2 : 0 < r.b2.vData.length
  contains_b1 : ∀ x ∈ S.take (window1 n r.nInsertions), r.b1.contains murmur x = true
  contains_b2 : ∀ x ∈ S.take (window2 n r.nInsertions), r.b2.contains murmur x = true

/-- Past one insert the first window grows by one, from nothing if the
filter was just cleared. -/
theorem window1_next (n c : Nat) :
    window1 n (if c + 1 = 2 * n then 0 else c + 1) ≤ (if c = 0 then 0 else window1 n c) + 1 := by
  unfold window1
  by_cases hWrap : c + 1 = 2 * n
  · simp only [hWrap, if_true]
    split_ifs <;> omega
  · simp only [hWrap, if_false, Nat.add_one_ne_zero]
    split_ifs <;> omega

theorem window2_next {n : Nat} (hn1 : 1 ≤ n) (c : Nat) :
    window2 n (if c + 1 = 2 * n then 0 else c + 1) ≤ (if c = n then 0 else window2 n c) + 1 := by
  unfold window2
  by_cases hWrap : c + 1 = 2 * n
  · simp only [hWrap, if_true]
    split_ifs <;> omega
  · simp only [hWrap, if_false]
    split_ifs <;> omega

@[simp] theorem b1_insert (r : CRollingBloomFilter) (vKey : List UInt8) :
    (r.insert murmur vKey).b1 =
      (if r.nInsertions = 0 then r.b1.clear else r.b1).insert murmur vKey := rfl

@[simp] theorem b2_insert (r : CRollingBloomFilter) (vKey : List UInt8) :
    (r.insert murmur vKey).b2 =
      (if r.nInsertions ≠ 0 ∧ r.nInsertions = r.nBloomSize / 2 then r.b2.clear else r.b2).insert
        murmur vKey := rfl

section

variable {n : Nat} {r : CRollingBloomFilter} {S : List (List UInt8)}

/-- The counter after an insert: one more, back to zero at `2 * n`. -/
theorem nInsertions_insert (h : WindowInv murmur n r S) (hn : n < 2 ^ 31) (vKey : List UInt8) :
    (r.insert murmur vKey).nInsertions =
      if r.nInsertions + 1 = 2 * n then 0 else r.nInsertions + 1 := by
  have hLt : r.nInsertions + 1 < 2 ^ 32 := by have := h.lt_size; omega
  simp only [insert, Nat.mod_eq_of_lt hLt, h.size_eq]

theorem WindowInv.insert (h : WindowInv murmur n r S) (hn1 : 1 ≤ n) (hn : n < 2 ^ 31)
    (vKey : List UInt8) : WindowInv murmur n (r.insert murmur vKey) (vKey :: S) := by
  have hC := nInsertions_insert h hn vKey
  have hLt := h.lt_size
  have hHalf : r.nBloomSize / 2 = n := by rw [h.size_eq]; omega
  refine ⟨h.size_eq, by rw [hC]; split <;> omega, ?_, ?_, ?_, ?_⟩
  · rw [b1_insert, length_insert]
    split <;> simp [clear, h.length_b1]
  · rw [b2_insert, length_insert]
    split <;> simp [clear, h.length_b2]
  · -- The first filter is cleared at counter zero and otherwise keeps its window.
    have hW := window1_next n r.nInsertions
    rw [b1_insert, hC]
    by_cases h0 : r.nInsertions = 0
    · rw [if_pos h0] at hW ⊢
      exact contains_take_insert (by simp [clear, h.length_b1]) (by simp) hW vKey
    · rw [if_neg h0] at hW ⊢
      exact contains_take_insert h.length_b1 h.contains_b1 hW vKey
  · -- The second filter is cleared at counter `n` and otherwise keeps its window.
    have hW := window2_next hn1 r.nInsertions
    rw [b2_insert, hC, hHalf]
    by_cases hMid : r.nInsertions = n
    · rw [if_pos hMid] at hW
      rw [if_pos (show r.nInsertions ≠ 0 ∧ r.nInsertions = n from ⟨by omega, hMid⟩)]
      exact contains_take_insert (by simp [clear, h.length_b2]) (by simp) hW vKey
    · rw [if_neg hMid] at hW
      rw [if_neg (show ¬(r.nInsertions ≠ 0 ∧ r.nInsertions = n) from fun h' => hMid h'.2)]
      exact contains_take_insert h.length_b2 h.contains_b2 hW vKey

/-- The filter answers from the one whose window covers the last `n` keys. -/
theorem WindowInv.contains (h : WindowInv murmur n r S) (hn1 : 1 ≤ n) :
    ∀ x ∈ S.take n, r.contains murmur x = true := by
  intro x hx
  unfold CRollingBloomFilter.contains
  rw [h.size_eq, Nat.mul_div_cancel_left n (by omega)]
  split
  · next hLow =>
    refine h.contains_b2 x (List.take_subset_take_left S ?_ hx)
    simp only [window2]
    split <;> omega
  · next hHigh =>
    refine h.contains_b1 x (List.take_subset_take_left S ?_ hx)
    simp only [window1]
    split <;> omega

end

/-- A new rolling filter for `1 ≤ nElements < 2 ^ 31` with non-empty bit
arrays holds the window of an empty history. -/
theorem windowInv_create {nElements nFilterBits : Nat} (hn1 : 1 ≤ nElements)
    (hn : nElements < 2 ^ 31) (hBits : 8 ≤ nFilterBits) (nNewTweak : UInt32) :
    WindowInv murmur nElements (create nElements nFilterBits nNewTweak) [] := by
  have hSize : nElements * 2 % 2 ^ 32 = 2 * nElements := by
    rw [Nat.mod_eq_of_lt (by omega)]
    omega
  have hLen : 0 < nFilterBits / 8 := by omega
  refine ⟨hSize, by simp [create, reset]; omega, ?_, ?_, by simp, by simp⟩
  · simpa [create, reset, CBloomFilter.reset, clear, createRolling] using hLen
  · simpa [create, reset, CBloomFilter.reset, clear, createRolling] using hLen

theorem windowInv_foldl_insert {n : Nat} (hn1 : 1 ≤ n) (hn : n < 2 ^ 31) (ks : List (List UInt8)) :
    ∀ {r : CRollingBloomFilter} {S : List (List UInt8)}, WindowInv murmur n r S →
      WindowInv murmur n (ks.foldl (insert murmur) r) (ks.reverse ++ S) := by
  induction ks with
  | nil => exact fun h => h
  | cons k ks ih =>
    intro r S h
    rw [List.foldl_cons, List.reverse_cons, List.append_assoc]
    exact ih (h.insert hn1 hn k)

/-- A rolling filter for `1 ≤ nElements < 2 ^ 31` with non-empty bit arrays
contains each of the last `nElements` keys inserted. -/
theorem rolling_contains_last {nElements nFilterBits : Nat} (hn1 : 1 ≤ nElements)
    (hn : nElements < 2 ^ 31) (hBits : 8 ≤ nFilterBits) (nNewTweak : UInt32)
    (ks : List (List UInt8)) :
    ∀ k ∈ ks.drop (ks.length - nElements),
      (ks.foldl (insert murmur) (create nElements nFilterBits nNewTweak)).contains murmur k =
        true := by
  intro k hk
  have hInv : WindowInv murmur nElements _ _ :=
    windowInv_foldl_insert hn1 hn ks (windowInv_create hn1 hn hBits nNewTweak)
  rw [List.append_nil] at hInv
  refine hInv.contains hn1 k ?_
  rw [List.take_reverse]
  exact List.mem_reverse.2 hk

end CRollingBloomFilter

/-! ## No false negatives -/

/-- A filter with bytes and hash functions whose `isFull` tells the truth
contains every key inserted since its last `clear` or `reset`; a rolling
filter for `1 ≤ nElements < 2 ^ 31` with non-empty arrays contains each of the
last `nElements` keys. -/
theorem bloom_no_false_negatives (murmur : UInt32 → List UInt8 → UInt32)
    (isPubKeyOrMultisig : CScript → Bool) (GetHash : CTransaction → uint256) :
    (∀ (f₀ f : CBloomFilter) (S : List (List UInt8)), 0 < f₀.vData.length →
      0 < f₀.nHashFuncs → f₀.Truthful →
      CBloomFilter.Reachable murmur isPubKeyOrMultisig GetHash f₀ f S →
      ∀ k ∈ S, f.contains murmur k = true) ∧
    (∀ (nElements nFilterBits : Nat) (nNewTweak : UInt32) (ks : List (List UInt8)),
      1 ≤ nElements → nElements < 2 ^ 31 → 8 ≤ nFilterBits →
      ∀ k ∈ ks.drop (ks.length - nElements),
        (ks.foldl (CRollingBloomFilter.insert murmur)
          (CRollingBloomFilter.create nElements nFilterBits nNewTweak)).contains murmur k = true) := by
  constructor
  · intro f₀ f S hData hFuncs hT hRun
    exact (hRun.runInv hFuncs hData hT).contains_eq
  · intro nElements nFilterBits nNewTweak ks hn1 hn hBits
    exact CRollingBloomFilter.rolling_contains_last hn1 hn hBits nNewTweak ks

/-- A polynomial hash of the key, seeded, in place of MurmurHash3. -/
def polyMurmur (nHashSeed : UInt32) (vDataToHash : List UInt8) : UInt32 :=
  vDataToHash.foldl (fun h b => h * 31 + b.toUInt32) nHashSeed

/-- The filter of two keys at 160 bits, after two inserts and an
`UpdateEmptyFull`, contains both; the rolling filter for two keys contains the
last two of three. -/
theorem bloom_no_false_negatives_twoKeys :
    (((CBloomFilter.create 2 160 5 BLOOM_UPDATE_ALL).insert polyMurmur [1]).insert polyMurmur
          [2, 3]).UpdateEmptyFull.contains polyMurmur [1] = true ∧
      (((CBloomFilter.create 2 160 5 BLOOM_UPDATE_ALL).insert polyMurmur [1]).insert polyMurmur
          [2, 3]).UpdateEmptyFull.contains polyMurmur [2, 3] = true ∧
      (([[1], [2], [3]] : List (List UInt8)).foldl (CRollingBloomFilter.insert polyMurmur)
        (CRollingBloomFilter.create 2 64 7)).contains polyMurmur [2] = true ∧
      (([[1], [2], [3]] : List (List UInt8)).foldl (CRollingBloomFilter.insert polyMurmur)
        (CRollingBloomFilter.create 2 64 7)).contains polyMurmur [3] = true := by
  have hRun : CBloomFilter.Reachable polyMurmur (fun _ => false) (fun _ => 0)
      (CBloomFilter.create 2 160 5 BLOOM_UPDATE_ALL)
      (((CBloomFilter.create 2 160 5 BLOOM_UPDATE_ALL).insert polyMurmur [1]).insert polyMurmur
        [2, 3]).UpdateEmptyFull [[2, 3], [1]] :=
    ((CBloomFilter.Reachable.start.insert [1]).insert [2, 3]).updateEmptyFull
  have hFilter := (bloom_no_false_negatives polyMurmur (fun _ => false) (fun _ => 0)).1
    (CBloomFilter.create 2 160 5 BLOOM_UPDATE_ALL) _ [[2, 3], [1]] (by decide) (by decide)
    (fun h => absurd h (by decide)) hRun
  have hRolling := (bloom_no_false_negatives polyMurmur (fun _ => false) (fun _ => 0)).2 2 64 7
    [[1], [2], [3]] (by decide) (by decide) (by decide)
  exact ⟨hFilter [1] (by simp), hFilter [2, 3] (by simp), hRolling [2] (by decide),
    hRolling [3] (by decide)⟩

end FairCoin.Ports.Bloom
