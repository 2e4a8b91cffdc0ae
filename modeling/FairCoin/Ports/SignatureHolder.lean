import FairCoin.Ports.ChainSignature

/-!
# The signature holder

`CSignatureHolder` keeps the partial chain signatures a node has received: a
map from the `x` coordinate of a set's total nonce to the set, itself a map
from signer to signature. Three operations change it. `AddSig` stores a
signature under its own `R` and signer, `clear(nNextCreator)` erases every
signature for another creator and every set that it leaves empty, and
`SetNull` (also the constructor) empties it.

Its readers take the first signature of a set for the set's missing list.
`HasCompleteSigSets` and `GetAllMissing` test that the set is not empty
first; `HasSigSetsToContributeTo` reads `s.begin()->second` before it tests
`s.empty()`, and `DetermineBestSignatureSet` reads
`commonR.second.begin()->second` with no test at all. Those two are safe
only because no operation leaves an empty set in the store.

## Main results

* `GetSignature_AddSig`, `GetSignature_clear` — what each operation does to
  the signature stored under a common `R` and a signer.
* `HolderInv`, `runOps_inv` — in every store the operations build, no set is
  empty and each signature is stored under its own `R` and signer.
* `HasSigSetsToContributeTo_eq_none_iff` — the unguarded read goes past the
  end of a set exactly when the store holds an empty set.
* `signatureHolder_run` — the invariant, the effect of `clear` and the safety
  of the unguarded reads, over every sequence of operations.
-/

namespace FairCoin.Ports.SignatureHolder

open FairCoin.Verified FairCoin.Ports.Primitives FairCoin.Ports.ChainSignature

/-! ## The store and its operations -/

/-- `CSignatureHolder::GetSignature`: the signature of `nSignerId` in the set
of `commonRx`, if both are there. -/
def GetSignature (sigs : MapSigCommonR) (nSignerId : UInt32) (commonRx : CSchnorrRx) :
    Option CCvnPartialSignature :=
  (sigs.find? commonRx).bind fun mapSigner => mapSigner.find? nSignerId

/-- `CSignatureHolder::clear`: the inner loop erases the signatures for
another creator, the outer one the sets it left empty. -/
def clear (sigs : MapSigCommonR) (nNextCreator : UInt32) : MapSigCommonR :=
  (sigs.mapVal fun _ m => m.filter fun _ sig => sig.nCreatorId == nNextCreator).filter
    fun _ m => !m.entries.isEmpty

/-- `CSignatureHolder::SetNull`, which the constructor calls. -/
def SetNull : MapSigCommonR := SortedMap.empty

/-- The operations that change the store. -/
inductive HolderOp
  | addSig (sig : CCvnPartialSignature)
  | clear (nNextCreator : UInt32)
  | setNull

/-- One operation on the store. -/
def HolderOp.apply (sigs : MapSigCommonR) : HolderOp → MapSigCommonR
  | .addSig sig => AddSig sigs sig
  | .clear nNextCreator => SignatureHolder.clear sigs nNextCreator
  | .setNull => SetNull

/-- The store after a sequence of operations on a new holder. -/
def runOps (ops : List HolderOp) : MapSigCommonR := ops.foldl HolderOp.apply SetNull

/-! ## Lookup after each operation -/

/-- `AddSig` stores the signature under its own `R` and signer, replacing
what was there, and leaves every other entry. -/
theorem GetSignature_AddSig (sigs : MapSigCommonR) (sig : CCvnPartialSignature)
    (nSignerId : UInt32) (commonRx : CSchnorrRx) :
    GetSignature (AddSig sigs sig) nSignerId commonRx =
      if commonRx = getRx sig.signature ∧ nSignerId = sig.nSignerId then some sig
      else GetSignature sigs nSignerId commonRx := by
  unfold GetSignature AddSig
  rw [SortedMap.find?_insert]
  by_cases hRx : commonRx = getRx sig.signature
  · subst hRx
    -- the set of `R` after the assignment: the old one, or a new empty one
    cases hSet : sigs.find? (getRx sig.signature) <;>
      simp [SortedMap.findD, SortedMap.find?_insert, hSet]
  · simp [hRx]

/-- After `clear(n)` the store holds exactly the signatures it held for
creator `n`. -/
theorem GetSignature_clear (sigs : MapSigCommonR) (nNextCreator nSignerId : UInt32)
    (commonRx : CSchnorrRx) :
    GetSignature (clear sigs nNextCreator) nSignerId commonRx =
      (GetSignature sigs nSignerId commonRx).filter fun sig => sig.nCreatorId == nNextCreator := by
  unfold GetSignature clear
  rw [SortedMap.find?_filter, SortedMap.find?_mapVal]
  cases sigs.find? commonRx with
  | none => rfl
  | some m =>
    have hKept := m.find?_filter (fun _ sig => sig.nCreatorId == nNextCreator) nSignerId
    simp only [Option.map_some, Option.bind_some]
    rw [← hKept]
    -- a set emptied by the inner loop is erased; it had nothing to find
    by_cases hEmpty : (m.filter fun _ sig => sig.nCreatorId == nNextCreator).entries = []
    · simp [hEmpty, SortedMap.find?_eq_none_of_entries_eq_nil hEmpty]
    · rw [Option.filter_some, if_pos (by simpa [List.isEmpty_iff] using hEmpty), Option.bind_some]

/-! ## The invariant -/

/-- What every operation keeps: no set is empty, and each signature is
stored under its own `R` and signer. -/
structure HolderInv (sigs : MapSigCommonR) : Prop where
  nonempty : ∀ commonRx mapSigner, sigs.find? commonRx = some mapSigner → mapSigner.entries ≠ []
  keyed : ∀ nSignerId commonRx sig, GetSignature sigs nSignerId commonRx = some sig →
    getRx sig.signature = commonRx ∧ sig.nSignerId = nSignerId

theorem SetNull_inv : HolderInv SetNull where
  nonempty := by simp [SetNull]
  keyed := by simp [SetNull, GetSignature]

theorem AddSig_inv {sigs : MapSigCommonR} (hInv : HolderInv sigs) (sig : CCvnPartialSignature) :
    HolderInv (AddSig sigs sig) where
  nonempty := by
    intro commonRx mapSigner hFind
    unfold AddSig at hFind
    rw [SortedMap.find?_insert] at hFind
    split_ifs at hFind with hRx
    · -- the set the signature went into holds it
      cases hFind
      exact SortedMap.entries_ne_nil_of_find? (SortedMap.find?_insert_self _ _ _)
    · exact hInv.nonempty commonRx mapSigner hFind
  keyed := by
    intro nSignerId commonRx sig' hGet
    rw [GetSignature_AddSig] at hGet
    split_ifs at hGet with hNew
    · cases hGet
      exact ⟨hNew.1.symm, hNew.2.symm⟩
    · exact hInv.keyed nSignerId commonRx sig' hGet

theorem clear_inv {sigs : MapSigCommonR} (hInv : HolderInv sigs) (nNextCreator : UInt32) :
    HolderInv (clear sigs nNextCreator) where
  nonempty := by
    intro commonRx mapSigner hFind
    unfold clear at hFind
    rw [SortedMap.find?_filter, Option.filter_eq_some_iff] at hFind
    simpa using hFind.2
  keyed := by
    intro nSignerId commonRx sig hGet
    rw [GetSignature_clear, Option.filter_eq_some_iff] at hGet
    exact hInv.keyed nSignerId commonRx sig hGet.1

theorem HolderOp.apply_inv {sigs : MapSigCommonR} (hInv : HolderInv sigs) :
    ∀ op : HolderOp, HolderInv (op.apply sigs)
  | .addSig sig => AddSig_inv hInv sig
  | .clear nNextCreator => clear_inv hInv nNextCreator
  | .setNull => SetNull_inv

/-- Every store a holder reaches keeps the invariant. -/
theorem runOps_inv (ops : List HolderOp) : HolderInv (runOps ops) := by
  unfold runOps
  suffices h : ∀ sigs, HolderInv sigs → HolderInv (ops.foldl HolderOp.apply sigs) from
    h SetNull SetNull_inv
  induction ops with
  | nil => exact fun _ hInv => hInv
  | cons op ops ih => exact fun sigs hInv => ih _ (HolderOp.apply_inv hInv op)

/-- Each set of a store with the invariant has a first signature. -/
theorem HolderInv.entries_ne_nil {sigs : MapSigCommonR} (hInv : HolderInv sigs)
    {e : CSchnorrRx × MapSigSigner} (hMem : e ∈ sigs.entries) : e.2.entries ≠ [] :=
  hInv.nonempty e.1 e.2 ((sigs.find?_eq_some_iff e.1 e.2).mpr hMem)

/-! ## The readers of a set's first signature -/

/-- `s.begin()->second`: the first signature of a set, `none` past the end
of an empty one. -/
def beginSig (s : MapSigSigner) : Option CCvnPartialSignature := s.entries.head?.map Prod.snd

theorem beginSig_isSome_iff (s : MapSigSigner) : (beginSig s).isSome ↔ s.entries ≠ [] := by
  cases hEntries : s.entries <;> simp [beginSig, hEntries]

/-- Whether `nActiveCVNs` less the missing ids of the set's first signature
is the set's size, in `size_t`: the set lacks no signature. -/
def setComplete (nActiveCVNs : UInt32) (sigFirst : CCvnPartialSignature) (s : MapSigSigner) :
    Bool :=
  nActiveCVNs.toUInt64 - sigFirst.vMissingSignerIds.length.toUInt64 == s.size.toUInt64

/-- The body of the loop of `HasSigSetsToContributeTo` on one set. `sigFirst`
is read before `s.empty()` is tested, so an empty set is a read past its end
(`none`); `some (some ids)` is a set this node has not signed. -/
def contributeTo (nNodeId nActiveCVNs : UInt32) (s : MapSigSigner) : Option (Option (List UInt32)) :=
  (beginSig s).map fun sigFirst =>
    if s.entries.isEmpty || setComplete nActiveCVNs sigFirst s then none
    else if !s.contains nNodeId then some sigFirst.vMissingSignerIds
    else none

/-- The loop of `HasSigSetsToContributeTo` over the sets, in map order. -/
def contributeLoop (nNodeId nActiveCVNs : UInt32) :
    List (CSchnorrRx × MapSigSigner) → Option (List (List UInt32))
  | [] => some []
  | (_, s) :: rest => do
    let found ← contributeTo nNodeId nActiveCVNs s
    let vRest ← contributeLoop nNodeId nActiveCVNs rest
    return found.toList ++ vRest

/-- `CSignatureHolder::HasSigSetsToContributeTo` into an empty vector: the
missing lists of the sets to sign (the function returns whether there is
one), `none` for a read past the end of an empty set. -/
def HasSigSetsToContributeTo (sigs : MapSigCommonR) (nNodeId nActiveCVNs : UInt32) :
    Option (List (List UInt32)) :=
  if sigs.entries.isEmpty then some [] else contributeLoop nNodeId nActiveCVNs sigs.entries

/-- `CSignatureHolder::HasCompleteSigSets`: an empty set is skipped before
its first signature is read. -/
def HasCompleteSigSets (sigs : MapSigCommonR) (nMaxSignatures : UInt32) : Bool :=
  if sigs.entries.isEmpty then false
  else sigs.entries.any fun e =>
    match beginSig e.2 with
    | none => false
    | some sigFirst => setComplete nMaxSignatures sigFirst e.2

/-- The ids of `mapNoncePool` that a set misses, for `GetAllMissing`: none
for an empty set (skipped before its first signature is read) or a complete
one. -/
def missingFromPools (nActiveCVNs : UInt32) (mapNoncePool : SortedMap UInt32 CNoncePool)
    (s : MapSigSigner) : List UInt32 :=
  match beginSig s with
  | none => []
  | some sigFirst =>
    if setComplete nActiveCVNs sigFirst s then []
    else mapNoncePool.keys.filter fun id => !s.contains id

/-- `CSignatureHolder::GetAllMissing`: the set `sMissing` of the pools' ids
that some set of `commonRxs` misses, in increasing order (the pools' keys
are), `none` for a `false` return. The node id it takes is not read. -/
def GetAllMissing (sigs : MapSigCommonR) (commonRxs : List CSchnorrRx)
    (mapNoncePool : SortedMap UInt32 CNoncePool) (nActiveCVNs : UInt32) : Option (List UInt32) :=
  if sigs.entries.isEmpty then none
  else
    let sets := commonRxs.filterMap sigs.find?
    let sMissing := mapNoncePool.keys.filter fun id =>
      sets.any fun s => (missingFromPools nActiveCVNs mapNoncePool s).contains id
    if sMissing.isEmpty then none else some sMissing

theorem contributeTo_eq_none_iff (nNodeId nActiveCVNs : UInt32) (s : MapSigSigner) :
    contributeTo nNodeId nActiveCVNs s = none ↔ s.entries = [] := by
  rw [contributeTo, Option.map_eq_none_iff, ← Option.not_isSome_iff_eq_none, beginSig_isSome_iff,
    not_not]

theorem contributeLoop_eq_none_iff (nNodeId nActiveCVNs : UInt32)
    (es : List (CSchnorrRx × MapSigSigner)) :
    contributeLoop nNodeId nActiveCVNs es = none ↔ ∃ e ∈ es, e.2.entries = [] := by
  induction es with
  | nil => simp [contributeLoop]
  | cons e es ih =>
    obtain ⟨commonRx, s⟩ := e
    cases hFirst : contributeTo nNodeId nActiveCVNs s with
    | none =>
      have hEmpty := (contributeTo_eq_none_iff nNodeId nActiveCVNs s).mp hFirst
      simp [contributeLoop, hFirst, hEmpty]
    | some found =>
      have hNonempty : s.entries ≠ [] := fun hEmpty =>
        absurd ((contributeTo_eq_none_iff nNodeId nActiveCVNs s).mpr hEmpty) (by simp [hFirst])
      cases hRest : contributeLoop nNodeId nActiveCVNs es with
      | none => simp [contributeLoop, hFirst, hRest, ← ih]
      | some vRest => simp [contributeLoop, hFirst, hRest, hNonempty, ← ih]

/-- `HasSigSetsToContributeTo` reads past the end of a set exactly when the
store holds an empty set. -/
theorem HasSigSetsToContributeTo_eq_none_iff (sigs : MapSigCommonR) (nNodeId nActiveCVNs : UInt32) :
    HasSigSetsToContributeTo sigs nNodeId nActiveCVNs = none ↔
      ∃ e ∈ sigs.entries, e.2.entries = [] := by
  unfold HasSigSetsToContributeTo
  split_ifs with hStore
  · simp [List.isEmpty_iff.mp hStore]
  · exact contributeLoop_eq_none_iff nNodeId nActiveCVNs sigs.entries

/-! ## Every run -/

/-- Whatever sequence of `AddSig`, `clear` and `SetNull` calls a holder has
seen, its store keeps the invariant, `clear(n)` on it keeps exactly the
signatures for creator `n`, `HasSigSetsToContributeTo` never reads past the
end of a set, and every set has the first signature `DetermineBestSignatureSet`
reads. -/
theorem signatureHolder_run (ops : List HolderOp) :
    HolderInv (runOps ops) ∧
      (∀ nNextCreator nSignerId commonRx,
        GetSignature (clear (runOps ops) nNextCreator) nSignerId commonRx =
          (GetSignature (runOps ops) nSignerId commonRx).filter
            fun sig => sig.nCreatorId == nNextCreator) ∧
      (∀ nNodeId nActiveCVNs, (HasSigSetsToContributeTo (runOps ops) nNodeId nActiveCVNs).isSome) ∧
      ∀ e ∈ (runOps ops).entries, (beginSig e.2).isSome := by
  have hInv := runOps_inv ops
  refine ⟨hInv, fun nNextCreator nSignerId commonRx => GetSignature_clear _ _ _ _, ?_, ?_⟩
  · intro nNodeId nActiveCVNs
    rw [Option.isSome_iff_ne_none, Ne, HasSigSetsToContributeTo_eq_none_iff]
    rintro ⟨e, hMem, hEmpty⟩
    exact hInv.entries_ne_nil hMem hEmpty
  · intro e hMem
    exact (beginSig_isSome_iff e.2).mpr (hInv.entries_ne_nil hMem)

end FairCoin.Ports.SignatureHolder
