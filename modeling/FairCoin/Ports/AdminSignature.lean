import FairCoin.Ports.PocState

/-!
# Admin multi-signatures

`CheckAdminSignature` guards every administrative change, on the message path
(`AddChainData`) and on the block path (`CheckBlock`, after
`CheckForDuplicateAdminSigs`). It counts `vAdminIds` against the configured
bounds and then asks `CvnVerifyAdminSignature`, which combines the keys of the
admins of `mapChainAdmins` that occur in `vAdminIds`, in map order, and checks
the signature under the sum.

The count and the combination are over different sets: an id given twice, or
an id of no admin, is counted but contributes no key. So the signature that
passes with two ids can be one made by a single admin.

## Main results

* `CvnVerifyAdminSignature_of_size_ne_one` — outside the one-admin bootstrap,
  the check is a verification under the combined keys of `adminSignerKeys`.
* `adminSignerKeys_eq_singleton` — when one admin is the only member of the
  map named in `vAdminIds`, its key is the only one combined.
* `adminSignature_single_signer` — with two admins and a threshold of two,
  `[a, a]` on the message path and `[a, x]` for an unknown `x` on the block
  path are accepted exactly when the signature verifies under `a`'s key alone.
-/

namespace FairCoin.Ports.AdminSignature

open FairCoin.Verified FairCoin.Ports.Primitives FairCoin.Ports.PocState

/-- `CvnVerifySignature(hash, sig, pubKey)`. -/
def CvnVerifySignature (ec : PocCrypto) (hash : uint256) (sig : CSchnorrSig)
    (pubKey : CSchnorrPubKey) : Bool :=
  ec.verifySchnorr hash sig pubKey

/-- `CvnVerifySignature(hash, sig, nCvnId)`: the signature under the key of
an active CVN. -/
def CvnVerifySignatureById (ec : PocCrypto) (g : PocGlobals) (hash : uint256) (sig : CSchnorrSig)
    (nCvnId : UInt32) : Bool :=
  (g.mapCVNs.find? nCvnId).any fun cvn => CvnVerifySignature ec hash sig cvn.pubKey

/-- The keys `CvnVerifyAdminSignature` collects into `allSignersPubkeys`: for
each admin in map order, its key if its id occurs in `vAdminIds`. -/
def adminSignerKeys (g : PocGlobals) (vAdminIds : List UInt32) : List CSchnorrPubKey :=
  (g.mapChainAdmins.entries.filter fun e => vAdminIds.contains e.1).map fun e => e.2.pubKey

/-- `CvnVerifyAdminSignature`. -/
def CvnVerifyAdminSignature (ec : PocCrypto) (g : PocGlobals) (vAdminIds : List UInt32)
    (hashAdmin : uint256) (sig : CSchnorrSig) : Bool :=
  if vAdminIds.isEmpty then false
  -- bootstrapping with a single admin: its key alone, `vAdminIds` unread
  else if g.mapChainAdmins.size = 1 then
    match g.mapChainAdmins.entries.head? with
    | some (_, admin) => ec.verifySchnorr hashAdmin sig admin.pubKey
    | none => false
  else
    match ec.pubkeyCombine (adminSignerKeys g vAdminIds) with
    | some pubKey => CvnVerifySignature ec hashAdmin sig pubKey
    | none => false

/-- `CheckAdminSignature`: the number of ids (as the `uint32_t` the code
stores it in) against `nMinAdminSigs`, `nMaxAdminSigs` and, for a coin
supply, the number of admins; then the signature. -/
def CheckAdminSignature (ec : PocCrypto) (g : PocGlobals) (vAdminIds : List UInt32)
    (hashAdmin : uint256) (sig : CSchnorrSig) (fCoinSupply : Bool) : Bool :=
  let nSigs : UInt32 := UInt32.ofNat vAdminIds.length
  if nSigs < g.dynParams.nMinAdminSigs then false
  else if nSigs > g.dynParams.nMaxAdminSigs then false
  else if fCoinSupply && decide (nSigs.toNat < g.mapChainAdmins.size) then false
  else CvnVerifyAdminSignature ec g vAdminIds hashAdmin sig

theorem CvnVerifyAdminSignature_of_size_ne_one (ec : PocCrypto) (g : PocGlobals)
    {vAdminIds : List UInt32} (hashAdmin : uint256) (sig : CSchnorrSig)
    (hIds : vAdminIds ≠ []) (hSize : g.mapChainAdmins.size ≠ 1) :
    CvnVerifyAdminSignature ec g vAdminIds hashAdmin sig =
      (ec.pubkeyCombine (adminSignerKeys g vAdminIds)).any (CvnVerifySignature ec hashAdmin sig) := by
  have hNonEmpty : vAdminIds.isEmpty = false := List.isEmpty_eq_false_iff.mpr hIds
  unfold CvnVerifyAdminSignature
  simp only [hNonEmpty, hSize, Bool.false_eq_true, if_false]
  cases ec.pubkeyCombine (adminSignerKeys g vAdminIds) <;> rfl

/-- Past the three counts, `CheckAdminSignature` is `CvnVerifyAdminSignature`. -/
theorem CheckAdminSignature_of_counts (ec : PocCrypto) (g : PocGlobals) (vAdminIds : List UInt32)
    (hashAdmin : uint256) (sig : CSchnorrSig) (fCoinSupply : Bool)
    (hMin : g.dynParams.nMinAdminSigs ≤ UInt32.ofNat vAdminIds.length)
    (hMax : UInt32.ofNat vAdminIds.length ≤ g.dynParams.nMaxAdminSigs)
    (hAll : fCoinSupply = true → g.mapChainAdmins.size ≤ (UInt32.ofNat vAdminIds.length).toNat) :
    CheckAdminSignature ec g vAdminIds hashAdmin sig fCoinSupply =
      CvnVerifyAdminSignature ec g vAdminIds hashAdmin sig := by
  have hNotLt : ¬ UInt32.ofNat vAdminIds.length < g.dynParams.nMinAdminSigs := not_lt.mpr hMin
  have hNotGt : ¬ UInt32.ofNat vAdminIds.length > g.dynParams.nMaxAdminSigs := not_lt.mpr hMax
  have hSupply : (fCoinSupply && decide ((UInt32.ofNat vAdminIds.length).toNat <
      g.mapChainAdmins.size)) = false := by
    cases fCoinSupply
    · rfl
    · simpa using hAll rfl
  simp only [CheckAdminSignature, hNotLt, hNotGt, hSupply, if_false, Bool.false_eq_true]

/-- The admin keys combined are those of the admins named in `vAdminIds`;
when `a` is the only admin named, they are `a`'s key alone, however many other
ids the list holds. -/
theorem adminSignerKeys_eq_singleton (g : PocGlobals) {vAdminIds : List UInt32} {a : UInt32}
    {admin : CChainAdmin} (hA : g.mapChainAdmins.find? a = some admin) (haIn : a ∈ vAdminIds)
    (hOnly : ∀ k ∈ g.mapChainAdmins.keys, k ∈ vAdminIds → k = a) :
    adminSignerKeys g vAdminIds = [admin.pubKey] := by
  have hFilter := g.mapChainAdmins.filter_entries_eq_singleton (p := fun k => vAdminIds.contains k)
    hA (by simpa using haIn) (fun k hk hkIn => hOnly k hk (by simpa using hkIn))
  simp only [adminSignerKeys, hFilter, List.map_cons, List.map_nil]

/-- With two admins and `nMinAdminSigs ≤ 2 ≤ nMaxAdminSigs`, an admin
signature is accepted on a signature of admin `a` alone: on the block path
with the ids `[a, x]` for an `x` that is no admin (the duplicate check
passes, and for a coin supply the count of ids equals the number of admins),
and on the message path with the ids `[a, a]`. -/
theorem adminSignature_single_signer (ec : PocCrypto) (g : PocGlobals) {a x : UInt32}
    {admin : CChainAdmin} (hA : g.mapChainAdmins.find? a = some admin)
    (hX : g.mapChainAdmins.contains x = false) (hSize : g.mapChainAdmins.size = 2)
    (hMin : g.dynParams.nMinAdminSigs ≤ 2) (hMax : 2 ≤ g.dynParams.nMaxAdminSigs)
    (b : CBlock) (hb : b.vAdminIds = [a, x]) (hash : uint256) (sig : CSchnorrSig)
    (fCoinSupply : Bool) :
    CheckForDuplicateAdminSigs g b = true ∧
    CheckAdminSignature ec g b.vAdminIds hash sig fCoinSupply =
      (ec.pubkeyCombine [admin.pubKey]).any (CvnVerifySignature ec hash sig) ∧
    CheckAdminSignature ec g [a, a] hash sig false =
      (ec.pubkeyCombine [admin.pubKey]).any (CvnVerifySignature ec hash sig) := by
  have haKey : g.mapChainAdmins.contains a = true :=
    (g.mapChainAdmins.contains_iff_find?_isSome a).mpr (by simp [hA])
  have hax : a ≠ x := by
    rintro rfl
    rw [haKey] at hX
    cases hX
  have hSize1 : g.mapChainAdmins.size ≠ 1 := by omega
  have hOnly : ∀ ids : List UInt32, (∀ k ∈ ids, k = a ∨ k = x) →
      ∀ k ∈ g.mapChainAdmins.keys, k ∈ ids → k = a := by
    intro ids hIds k hk hkIn
    rcases hIds k hkIn with h | rfl
    · exact h
    · rw [← g.mapChainAdmins.contains_iff_mem_keys, hX] at hk
      cases hk
  have hKeysAX : adminSignerKeys g [a, x] = [admin.pubKey] :=
    adminSignerKeys_eq_singleton g hA (by simp) (hOnly [a, x] (by simp))
  have hKeysAA : adminSignerKeys g [a, a] = [admin.pubKey] :=
    adminSignerKeys_eq_singleton g hA (by simp) (hOnly [a, a] (by simp))
  refine ⟨?_, ?_, ?_⟩
  · rw [CheckForDuplicateAdminSigs, hb, checkDuplicateSignerIds_eq_true_iff]
    exact ⟨by simpa using hax, Or.inr (by simp [hSize])⟩
  · rw [hb, CheckAdminSignature_of_counts ec g [a, x] hash sig fCoinSupply hMin hMax
      (fun _ => by simp [hSize]),
      CvnVerifyAdminSignature_of_size_ne_one ec g hash sig (by simp) hSize1, hKeysAX]
  · rw [CheckAdminSignature_of_counts ec g [a, a] hash sig false hMin hMax (by simp),
      CvnVerifyAdminSignature_of_size_ne_one ec g hash sig (by simp) hSize1, hKeysAA]

/-- The chain admins `{1, 2}` with a threshold of two signatures. -/
def twoAdminGlobals : PocGlobals :=
  { (default : PocGlobals) with
    mapChainAdmins := ⟨[(1, ⟨1, 0, ⟨1⟩⟩), (2, ⟨2, 0, ⟨2⟩⟩)], by decide⟩
    dynParams := { (default : CDynamicChainParams) with nMinAdminSigs := 2, nMaxAdminSigs := 2 } }

/-- A block naming admin 1 and the unknown id 7 as its signers. -/
def adminOneAndSevenBlock : CBlock :=
  { (default : CBlock) with vAdminIds := [1, 7] }

/-- An oracle for tests: a signature passes under the key with the same bytes,
and combining keeps the first key. -/
def echoCrypto : PocCrypto :=
  ⟨fun _ => 0, fun _ sig pk => sig.data == pk.data, fun _ _ _ _ => true, List.head?,
    List.head?⟩

theorem adminSignature_single_signer_twoAdmins :
    CheckForDuplicateAdminSigs twoAdminGlobals adminOneAndSevenBlock = true ∧
    CheckAdminSignature echoCrypto twoAdminGlobals adminOneAndSevenBlock.vAdminIds 0 ⟨1⟩ true =
      (echoCrypto.pubkeyCombine [⟨1⟩]).any (CvnVerifySignature echoCrypto 0 ⟨1⟩) ∧
    CheckAdminSignature echoCrypto twoAdminGlobals [1, 1] 0 ⟨1⟩ false =
      (echoCrypto.pubkeyCombine [⟨1⟩]).any (CvnVerifySignature echoCrypto 0 ⟨1⟩) :=
  @adminSignature_single_signer echoCrypto twoAdminGlobals 1 7 ⟨1, 0, ⟨1⟩⟩ rfl rfl rfl
    (by decide) (by decide) adminOneAndSevenBlock rfl 0 ⟨1⟩ true

end FairCoin.Ports.AdminSignature
