import FairCoin.Ports.SignatureHolder
import FairCoin.Ports.PocThread

/-!
# The PoC thread's partial signatures and the nonce they use

A CVN co-signs the block after the tip with a partial Schnorr signature.
`SendCVNSignature` takes the next creator, the offset of the tip in the
node's own nonce pool (`nPoolOffset`, the tip height less the height the
pool was added at) and, in `CvnSignPartial`, signs the hash of the tip, the
creator and the missing signers against the sum of the other signers' public
nonces, with the private nonce at that offset. The signature is added to the
holder and relayed.

The PoC thread is a state machine (`POCStateHolder`): a pass of its loop
reads the tip and the next creator, resets the state on a new tip or a
block-spacing timeout (a new next creator at the same tip), and runs the
handler of the state. Three handlers sign: `handleCreateSignature` once per
reset, `handleCompleteSignatureSets` once for every set of other signers
this node has not signed, and `handleWaitingForSignatures` when its retry
timer fires, each for its own missing list. The offset depends on the tip
and the pool only.

The node's keys, hash functions and curve are parameters (`SigningCrypto`),
and so are `HasEnoughSignatures`, `CreateBlock` and the upkeep of the nonce
pools (`SetUpNoncePool`, `CreateNewNoncePool`, `CheckNoncePools`), which sign
nothing (`ThreadEnv`). The key held in a file is modelled (`-cvn=file`);
with a Fasito device the same offset selects the nonce. `published` records
each relayed signature with the pool entry and the pair its signing used.

## Main results

* `SendCVNSignature_signsAt` — a signature `SendCVNSignature` relays was
  made with the pool entry at the tip's offset.
* `runThread_signsAt` — over every run at one tip that leaves the node's own
  pool as it is, every relayed signature used the pool entry at the tip's
  offset: the same private nonce, whatever hash it signed.
-/

namespace FairCoin.Ports.PocSigning

open FairCoin.Verified FairCoin.Ports.Primitives FairCoin.Ports.PocState
open FairCoin.Ports.AdminSignature FairCoin.Ports.ChainSignature FairCoin.Ports.SignatureHolder
open FairCoin.Ports.PocThread

/-! ## Signing one partial signature -/

/-- `CSchnorrPrivNonce`: a private nonce, 32 bytes. -/
structure CSchnorrPrivNonce where
  data : BitVec 256
  deriving DecidableEq, Repr

def CSchnorrPrivNonce.isNull (nonce : CSchnorrPrivNonce) : Bool := nonce.data == 0

/-- `CNoncePool()`, which `mapNoncePool[nCvnNodeId]` inserts for a node
without a pool. -/
def nullNoncePool : CNoncePool := ⟨0, 0, [], 0, ⟨0⟩, 0⟩

/-- The node's key and the primitives its signing calls. -/
structure SigningCrypto where
  ec : PocCrypto
  /-- `CvnSignWithKey`: a Schnorr signature of a hash under the node's key. -/
  signHash : uint256 → Option CSchnorrSig
  /-- `CKey::SchnorrSignParial` under the node's key: the partial signature
  of a hash against the other signers' nonce sum, with a private nonce. -/
  signPartial : uint256 → CSchnorrPubKey → CSchnorrPrivNonce → CSchnorrSig
  /-- `CCvnPartialSignature::GetHash`. -/
  msgHash : CCvnPartialSignature → uint256

/-- What the signing of a partial signature used: the offset into the node's
nonce pool and the private nonce there, and the pair it signed, the hash and
the other signers' nonce sum. -/
structure NonceUse where
  nPoolOffset : Int32
  privNonce : CSchnorrPrivNonce
  hashToSign : uint256
  sumPublicNoncesOthers : CSchnorrPubKey
  deriving DecidableEq, Repr

/-- The part of the node the signing reads and changes: the PoC globals, the
signature holder, the private nonces of its own pool and its id; and the
partial signatures it relayed, each with its nonce use (`none` for the plain
signature of a lone CVN). -/
structure SigningNode where
  g : PocGlobals
  sigHolder : MapSigCommonR
  vNoncePrivate : List CSchnorrPrivNonce
  nCvnNodeId : UInt32
  published : List (CCvnPartialSignature × Option NonceUse)

/-- `mapNoncePool[nCvnNodeId]`: the node's own pool, the null pool if it has
none. -/
def ownPool (n : SigningNode) : CNoncePool := n.g.mapNoncePool.findD n.nCvnNodeId nullNoncePool

/-- `nPoolOffset` of `SendCVNSignature`: the tip height less the height the
pool was added at, in `uint32_t` read back as `int`. -/
def poolOffset (tip : CBlockIndex) (pool : CNoncePool) : Int32 :=
  (tip.nHeight.toUInt32 - pool.nHeightAdded).toInt32

/-- `CvnSignPartialWithKey`: the partial signature with the private nonce at
`nPoolOffset`, and that nonce; `none` past the end of the pool or for a null
nonce. A negative offset reads before the vector, which is undefined, and
fails here. -/
def CvnSignPartialWithKey (cr : SigningCrypto) (vNoncePrivate : List CSchnorrPrivNonce)
    (hashToSign : uint256) (sumPublicNoncesOthers : CSchnorrPubKey) (nPoolOffset : Int32) :
    Option (CSchnorrSig × CSchnorrPrivNonce) :=
  if nPoolOffset.toInt ≥ vNoncePrivate.length then none
  else if nPoolOffset < 0 then none
  else
    match vNoncePrivate[nPoolOffset.toInt.toNat]? with
    | none => none
    | some privNonce =>
      if privNonce.isNull then none
      else some (cr.signPartial hashToSign sumPublicNoncesOthers privNonce, privNonce)

/-- `CCvnPartialSignatureUnsinged()` with the fields `CvnSignPartial` sets
before it signs. -/
def unsignedPartial (nNodeId nNextCreator : UInt32) (hashPrevBlock : uint256)
    (nCreationTime : UInt32) : CCvnPartialSignature :=
  ⟨1, nNodeId, nNextCreator, hashPrevBlock, ⟨0⟩, nCreationTime, false, [], ⟨0⟩⟩

/-- `CvnSignPartial` with the node's key: the partial signature and its
nonce use; `none` for `false`. A lone CVN signs the plain hash of the tip and
the creator. -/
def CvnSignPartial (cr : SigningCrypto) (g : PocGlobals) (vNoncePrivate : List CSchnorrPrivNonce)
    (nTipHeight : Int32) (nCreationTime : UInt32) (hashPrevBlock : uint256)
    (nNextCreator nNodeId : UInt32) (vMissingSignerIds : List UInt32) (nPoolOffset : Int32) :
    Option (CCvnPartialSignature × Option NonceUse) :=
  if nNodeId = 0 then none
  else if !g.mapCVNs.contains nNodeId then none
  else
    let signature := unsignedPartial nNodeId nNextCreator hashPrevBlock nCreationTime
    if g.mapCVNs.size = 1 then
      (cr.signHash (cr.ec.hash (chainSigPreimage hashPrevBlock nNextCreator []))).map
        fun sig => ({ signature with signature := sig }, none)
    else do
      let sumPublicNoncesOthers ←
        CreateSumPublicNoncesOthers cr.ec g nTipHeight nNodeId vMissingSignerIds
      let hashToSign := cr.ec.hash (chainSigPreimage hashPrevBlock nNextCreator vMissingSignerIds)
      let (sig, privNonce) ←
        CvnSignPartialWithKey cr vNoncePrivate hashToSign sumPublicNoncesOthers nPoolOffset
      let cvn ← g.mapCVNs.find? nNodeId
      if cr.ec.verifyPartialSchnorr hashToSign sig cvn.pubKey sumPublicNoncesOthers then
        some ({ signature with signature := sig, vMissingSignerIds },
          some ⟨nPoolOffset, privNonce, hashToSign, sumPublicNoncesOthers⟩)
      else none

/-- `AddCvnSignature`: a message whose own signature verifies under its
signer's key is marked validated or not, and added to the holder. -/
def AddCvnSignature (cr : SigningCrypto) (g : PocGlobals) (nTipHeight : Int32)
    (sigHolder : MapSigCommonR) (msg : CCvnPartialSignature) :
    Option (MapSigCommonR × CCvnPartialSignature) :=
  match g.mapCVNs.find? msg.nSignerId with
  | none => none
  | some cvn =>
    if !CvnVerifySignature cr.ec (cr.msgHash msg) msg.msgSig cvn.pubKey then none
    else
      let msg := { msg with fValidated := CvnVerifyPartialSignature cr.ec g nTipHeight msg }
      some (AddSig sigHolder msg, msg)

/-! ## The state machine -/

inductive POCState where
  | INIT | WAITING_FOR_BLOCK_PROPAGATION | CREATE_SIGNATURE | WAITING_FOR_SIGNATURES
  | WAITING_FOR_BLOCK | WAITING_FOR_NEW_TIP | WAITING_FOR_CVN_DATA | COMPLETE_SIGNATURE_SETS
  | CREATE_SIGNATURE_OVERDUE | WAITING_FOR_SIGNATURES_OVERDUE
  deriving DecidableEq, Repr

/-- `POCStateHolder`; the block index pointers are compared by their block
hash. -/
structure POCStateHolder where
  state : POCState
  nNodeId : UInt32
  nNextCreator : UInt32
  nLastCreator : UInt32
  nSleep : UInt32
  commonRxs : List CSchnorrRx
  pindexLastTip : CBlockIndex
  pindexPrev : CBlockIndex

def POCStateHolder.Reset (s : POCStateHolder) (nNextCreatorIn : UInt32)
    (pindexPrevIn : CBlockIndex) (stateIn : POCState) : POCStateHolder :=
  { s with state := stateIn, nLastCreator := s.nNextCreator, nNextCreator := nNextCreatorIn,
           pindexLastTip := s.pindexPrev, pindexPrev := pindexPrevIn, nSleep := 0,
           commonRxs := [] }

def POCStateHolder.NewTip (s : POCStateHolder) : Bool :=
  s.pindexLastTip.hashBlock != s.pindexPrev.hashBlock

def POCStateHolder.BlockSpacingTimeout (s : POCStateHolder) : Bool :=
  s.nLastCreator != s.nNextCreator

/-- What a pass of the loop sees: the tip, the adjusted time, and the next
creator `CheckNextBlockCreator` gives for them (`SendCVNSignature` asks
again, for the same tip in the same pass). -/
structure Iteration where
  tip : CBlockIndex
  nAdjustedTime : Int64
  nNextCreator : UInt32

/-- `mapNoncePool[nCvnNodeId]`, which gives a node without a pool the null
pool. -/
def withOwnPool (n : SigningNode) : SigningNode :=
  if n.g.mapNoncePool.contains n.nCvnNodeId then n
  else { n with g := { n.g with mapNoncePool := n.g.mapNoncePool.insert n.nCvnNodeId nullNoncePool } }

/-- `AddCvnSignature(msg)` and, when it accepts, `RelayCvnSignature(msg)`,
recorded with the nonce use of its signing. -/
def addAndRelay (cr : SigningCrypto) (nTipHeight : Int32) (n : SigningNode)
    (msg : CCvnPartialSignature) (use : Option NonceUse) : SigningNode :=
  match AddCvnSignature cr n.g nTipHeight n.sigHolder msg with
  | some (sigHolder, msg) => { n with sigHolder, published := n.published ++ [(msg, use)] }
  | none => n

/-- `SendCVNSignature`: whether it returned `true`, with the node and the
state holder as it leaves them; a signature it makes has its `R` remembered
in `commonRxs`. -/
def SendCVNSignature (cr : SigningCrypto) (it : Iteration) (n : SigningNode) (s : POCStateHolder)
    (vMissingSignatures : List UInt32) : Bool × SigningNode × POCStateHolder :=
  if it.nNextCreator = 0 then (false, n, s)
  else
    let n := withOwnPool n
    let nPoolOffset := poolOffset it.tip (ownPool n)
    match CvnSignPartial cr n.g n.vNoncePrivate it.tip.nHeight it.nAdjustedTime.toInt32.toUInt32
        s.pindexPrev.hashBlock it.nNextCreator n.nCvnNodeId vMissingSignatures nPoolOffset with
    | none => (false, n, s)
    | some (signature, use) =>
      match cr.signHash (cr.msgHash signature) with
      | none => (false, n, s)
      | some msgSig =>
        let msg := { signature with msgSig }
        (true, addAndRelay cr it.tip.nHeight n msg use,
          { s with commonRxs := s.commonRxs ++ [getRx msg.signature] })

def FindSignerIDsWithMissingNonces (g : PocGlobals) : List UInt32 :=
  g.mapCVNs.keys.filter fun id => !g.mapNoncePool.contains id

def NoncePoolsAvailable (g : PocGlobals) (vMissingSignerIds : List UInt32) : Bool :=
  g.mapCVNs.keys.all fun id => vMissingSignerIds.contains id || g.mapNoncePool.contains id

/-- What the thread calls and this model does not compute. -/
structure ThreadEnv where
  cr : SigningCrypto
  HasEnoughSignatures : CBlockIndex → UInt32 → Bool
  /-- `CreateBlock`: whether a block was made and submitted. -/
  CreateBlock : POCStateHolder → SigningNode → Bool
  /-- The nonce-pool upkeep the handlers run (`SetUpNoncePool`,
  `CreateNewNoncePool` when the pool runs low, `CheckNoncePools`). -/
  maintainNoncePools : POCStateHolder → SigningNode → SigningNode

def handleCreateSignature (env : ThreadEnv) (it : Iteration) (n : SigningNode)
    (s : POCStateHolder) : SigningNode × POCStateHolder :=
  let fIsOverdue := s.state == .CREATE_SIGNATURE_OVERDUE
  if s.commonRxs.isEmpty then
    match SendCVNSignature env.cr it n s (FindSignerIDsWithMissingNonces n.g) with
    | (true, n, s) =>
      (n, { s with state := if fIsOverdue then .WAITING_FOR_SIGNATURES_OVERDUE
                            else .WAITING_FOR_SIGNATURES })
    | (false, n, s) => (n, { s with nSleep := 5 })
  else (n, s)

/-- The loop of `handleCompleteSignatureSets` over the missing lists of the
sets to sign. -/
def signSets (cr : SigningCrypto) (it : Iteration) :
    List (List UInt32) → SigningNode → POCStateHolder → SigningNode × POCStateHolder
  | [], n, s => (n, s)
  | entry :: entries, n, s =>
    if NoncePoolsAvailable n.g entry then
      let sent := SendCVNSignature cr it n s entry
      signSets cr it entries sent.2.1 sent.2.2
    else signSets cr it entries n s

/-- `handleCompleteSignatureSets`. `HasSigSetsToContributeTo` reads past the
end of an empty set (`none`) only on a holder with an empty set, which
`AddSig` and `clear` never leave (`runOps_inv`). -/
def handleCompleteSignatureSets (env : ThreadEnv) (it : Iteration) (n : SigningNode)
    (s : POCStateHolder) : SigningNode × POCStateHolder :=
  let vMissingSigsCandidates :=
    (HasSigSetsToContributeTo n.sigHolder s.nNodeId n.g.mapCVNs.size.toUInt32).getD []
  let signed := signSets env.cr it vMissingSigsCandidates n s
  (signed.1, { signed.2 with state := .WAITING_FOR_SIGNATURES })

/-- `handleWaitingForSignatures`; `none` where the timer takes a remainder by
a zero parameter. When the timer fires the node signs for the CVNs missing
from the sets it signed and those without a pool. -/
def handleWaitingForSignatures (env : ThreadEnv) (it : Iteration) (n : SigningNode)
    (s : POCStateHolder) : Option (SigningNode × POCStateHolder) :=
  if HasCompleteSigSets n.sigHolder n.g.mapCVNs.size.toUInt32 then
    some (n, { s with state := .WAITING_FOR_BLOCK })
  else
    let fIsOverdue := s.state == .WAITING_FOR_SIGNATURES_OVERDUE
    match sigSetRetryDue n.g.dynParams fIsOverdue it.nAdjustedTime s.pindexPrev.nTime with
    | .error () => none
    | .ok none => some (n, s)
    | .ok (some false) => some (n, s)
    | .ok (some true) =>
      let retried :=
        match GetAllMissing n.sigHolder s.commonRxs n.g.mapNoncePool n.g.mapCVNs.size.toUInt32 with
        | none => (n, s)
        | some missing =>
          let vMissingSignerIds := missing ++ FindSignerIDsWithMissingNonces n.g
          if env.HasEnoughSignatures s.pindexPrev
              (n.g.mapCVNs.size.toUInt32 - vMissingSignerIds.length.toUInt32) then
            let sent := SendCVNSignature env.cr it n s vMissingSignerIds
            (sent.2.1, sent.2.2)
          else (n, s)
      some (retried.1, { retried.2 with state := .COMPLETE_SIGNATURE_SETS,
                                        nSleep := retrySleep n.g.dynParams })

def handleWaitingForBlock (env : ThreadEnv) (it : Iteration) (n : SigningNode)
    (s : POCStateHolder) : POCStateHolder :=
  if s.nNextCreator = s.nNodeId then
    let nBlockTime : Int32 := (it.nAdjustedTime - s.pindexPrev.nTime.toUInt64.toInt64).toInt32
    if nBlockTime ≥ n.g.dynParams.nBlockSpacing.toInt32 then
      if env.CreateBlock s n then { s with state := .WAITING_FOR_NEW_TIP } else { s with nSleep := 3 }
    else s
  else s

def handleWaitingForBlockPropagation (env : ThreadEnv) (it : Iteration) (n : SigningNode)
    (s : POCStateHolder) : SigningNode × POCStateHolder :=
  if !n.g.mapCVNs.contains s.nNodeId then (n, { s with state := .WAITING_FOR_CVN_DATA })
  else
    let nLastBlockSeconds : Int64 := it.nAdjustedTime - s.pindexPrev.nTime.toUInt64.toInt64
    let nWait : Int64 := n.g.dynParams.nBlockPropagationWaitTime.toUInt64.toInt64
    let s := if nLastBlockSeconds ≤ nWait then
      { s with nSleep := (nWait - nLastBlockSeconds).toInt32.toUInt32 } else s
    (env.maintainNoncePools s n, { s with state := .CREATE_SIGNATURE })

def handleWaitingForCvnData (env : ThreadEnv) (n : SigningNode) (s : POCStateHolder) :
    SigningNode × POCStateHolder :=
  if n.g.mapCVNs.contains s.nNodeId then
    let s := { s with state := .WAITING_FOR_BLOCK_PROPAGATION, nSleep := 0 }
    (env.maintainNoncePools s n, s)
  else (n, { s with nSleep := 3 })

def handleInit (env : ThreadEnv) (it : Iteration) (n : SigningNode) (s : POCStateHolder) :
    SigningNode × POCStateHolder :=
  let s := { s with nSleep := 2 }
  if n.g.mapCVNs.contains s.nNodeId then
    let fOverdue := it.nAdjustedTime - s.pindexPrev.nTime.toUInt64.toInt64 >
      (n.g.dynParams.nBlockSpacing + n.g.dynParams.nBlockSpacingGracePeriod).toUInt64.toInt64
    (env.maintainNoncePools s n,
      { s with state := if fOverdue then .CREATE_SIGNATURE_OVERDUE
                        else .WAITING_FOR_BLOCK_PROPAGATION })
  else (n, { s with state := .WAITING_FOR_CVN_DATA })

/-- `stateHandlers[s.state](s)`. -/
def runHandler (env : ThreadEnv) (it : Iteration) (n : SigningNode) (s : POCStateHolder) :
    Option (SigningNode × POCStateHolder) :=
  match s.state with
  | .INIT => some (handleInit env it n s)
  | .WAITING_FOR_BLOCK_PROPAGATION => some (handleWaitingForBlockPropagation env it n s)
  | .CREATE_SIGNATURE | .CREATE_SIGNATURE_OVERDUE => some (handleCreateSignature env it n s)
  | .WAITING_FOR_SIGNATURES | .WAITING_FOR_SIGNATURES_OVERDUE =>
    handleWaitingForSignatures env it n s
  | .WAITING_FOR_BLOCK => some (n, handleWaitingForBlock env it n s)
  | .WAITING_FOR_NEW_TIP => some (n, s)
  | .WAITING_FOR_CVN_DATA => some (handleWaitingForCvnData env n s)
  | .COMPLETE_SIGNATURE_SETS => some (handleCompleteSignatureSets env it n s)

/-- The reset at the top of a pass: a new tip restarts at the block
propagation wait, a new next creator at the same tip (a block-spacing
timeout) at an overdue signature; both clear the holder of signatures for
other creators. -/
def resetOnTip (it : Iteration) (n : SigningNode) (s : POCStateHolder) :
    SigningNode × POCStateHolder :=
  if s.state = .WAITING_FOR_CVN_DATA then (n, s)
  else if s.NewTip then
    ({ n with sigHolder := SignatureHolder.clear n.sigHolder it.nNextCreator },
      s.Reset it.nNextCreator it.tip .WAITING_FOR_BLOCK_PROPAGATION)
  else if s.BlockSpacingTimeout then
    ({ n with sigHolder := SignatureHolder.clear n.sigHolder it.nNextCreator },
      s.Reset it.nNextCreator it.tip .CREATE_SIGNATURE_OVERDUE)
  else (n, s)

/-- One pass of the loop of `POCThread`; `none` where the thread traps. The
sleep a handler asks for is slept at the end of the pass. -/
def pocIteration (env : ThreadEnv) (it : Iteration) (n : SigningNode) (s : POCStateHolder) :
    Option (SigningNode × POCStateHolder) :=
  let s := { s with pindexPrev := it.tip, nNextCreator := it.nNextCreator }
  if it.nNextCreator = 0 then some (n, s)
  else
    let reset := resetOnTip it n s
    (runHandler env it reset.1 reset.2).map fun r => (r.1, { r.2 with nSleep := 0 })

/-- What happens to the node: a pass of the thread's loop, or a peer's
partial signature taken in by `AddCvnSignature` in the message handler. -/
inductive ThreadEvent where
  | iterate (it : Iteration)
  | receive (msg : CCvnPartialSignature)

def ThreadEvent.apply (env : ThreadEnv) (ns : SigningNode × POCStateHolder) :
    ThreadEvent → Option (SigningNode × POCStateHolder)
  | .iterate it => pocIteration env it ns.1 ns.2
  | .receive msg =>
    match AddCvnSignature env.cr ns.1.g ns.2.pindexPrev.nHeight ns.1.sigHolder msg with
    | some (sigHolder, _) => some ({ ns.1 with sigHolder }, ns.2)
    | none => some ns

/-- The node after a sequence of events; `none` once the thread has
trapped. -/
def runThread (env : ThreadEnv) : List ThreadEvent → SigningNode × POCStateHolder →
    Option (SigningNode × POCStateHolder)
  | [], ns => some ns
  | e :: es, ns => (e.apply env ns).bind (runThread env es)

/-- Two signatures made with the same pool entry for different pairs of hash
and nonce sum: the private key follows from the two. -/
def NonceUse.conflicts (u v : NonceUse) : Bool :=
  u.nPoolOffset == v.nPoolOffset && u.privNonce == v.privNonce &&
    (u.hashToSign != v.hashToSign || u.sumPublicNoncesOthers != v.sumPublicNoncesOthers)

/-- Some two relayed signatures conflict. -/
def reusesNonce (published : List (CCvnPartialSignature × Option NonceUse)) : Bool :=
  published.any fun a => published.any fun b =>
    match a.2, b.2 with
    | some u, some v => u.conflicts v
    | _, _ => false

/-! ## Every signature at one tip uses the same pool entry -/

/-- Between `n` and `n'` the node kept its own pool, its private nonces and
its id, and every signature it relayed meanwhile was made with the private
nonce at `tip`'s offset in that pool. -/
structure SignsAt (tip : CBlockIndex) (n n' : SigningNode) : Prop where
  ownPool_eq : ownPool n' = ownPool n
  vNoncePrivate_eq : n'.vNoncePrivate = n.vNoncePrivate
  nCvnNodeId_eq : n'.nCvnNodeId = n.nCvnNodeId
  published : ∃ new, n'.published = n.published ++ new ∧ ∀ p ∈ new, ∀ u, p.2 = some u →
    u.nPoolOffset = poolOffset tip (ownPool n) ∧
      n.vNoncePrivate[(poolOffset tip (ownPool n)).toInt.toNat]? = some u.privNonce

namespace SignsAt

variable {tip : CBlockIndex}

theorem refl (tip : CBlockIndex) (n : SigningNode) : SignsAt tip n n :=
  ⟨rfl, rfl, rfl, [], by simp, by simp⟩

theorem trans {n₁ n₂ n₃ : SigningNode} (h₁₂ : SignsAt tip n₁ n₂) (h₂₃ : SignsAt tip n₂ n₃) :
    SignsAt tip n₁ n₃ := by
  obtain ⟨new₁, hPub₁, hNew₁⟩ := h₁₂.published
  obtain ⟨new₂, hPub₂, hNew₂⟩ := h₂₃.published
  refine ⟨h₂₃.ownPool_eq.trans h₁₂.ownPool_eq, h₂₃.vNoncePrivate_eq.trans h₁₂.vNoncePrivate_eq,
    h₂₃.nCvnNodeId_eq.trans h₁₂.nCvnNodeId_eq, new₁ ++ new₂,
    by rw [hPub₂, hPub₁, List.append_assoc], ?_⟩
  intro p hp u hu
  rcases List.mem_append.1 hp with hp | hp
  · exact hNew₁ p hp u hu
  · have h := hNew₂ p hp u hu
    rw [h₁₂.ownPool_eq, h₁₂.vNoncePrivate_eq] at h
    exact h

/-- A change that relays nothing and keeps the pool. -/
theorem of_frame {n n' : SigningNode} (hPool : ownPool n' = ownPool n)
    (hNonces : n'.vNoncePrivate = n.vNoncePrivate) (hId : n'.nCvnNodeId = n.nCvnNodeId)
    (hPub : n'.published = n.published) : SignsAt tip n n' :=
  ⟨hPool, hNonces, hId, [], by simp [hPub], by simp⟩

/-- The node of a result `some (n', s')`. -/
theorem of_some_eq {n n' : SigningNode} {s' : POCStateHolder} {p : SigningNode × POCStateHolder}
    (h : some p = some (n', s')) (hp : SignsAt tip n p.1) : SignsAt tip n n' := by
  rw [Option.some.injEq] at h
  subst h
  exact hp

end SignsAt

theorem ownPool_withOwnPool (n : SigningNode) : ownPool (withOwnPool n) = ownPool n := by
  unfold withOwnPool
  split_ifs with hHas
  · rfl
  · have hNone : n.g.mapNoncePool.find? n.nCvnNodeId = none := by
      rw [← Option.not_isSome_iff_eq_none, ← SortedMap.contains_iff_find?_isSome]
      exact hHas
    simp [ownPool, SortedMap.findD, SortedMap.find?_insert_self, hNone]

theorem withOwnPool_signsAt (tip : CBlockIndex) (n : SigningNode) :
    SignsAt tip n (withOwnPool n) := by
  refine SignsAt.of_frame (ownPool_withOwnPool n) ?_ ?_ ?_ <;>
    · unfold withOwnPool
      split_ifs <;> rfl

theorem CvnSignPartialWithKey_nonce {cr : SigningCrypto} {vNoncePrivate : List CSchnorrPrivNonce}
    {hashToSign : uint256} {sum : CSchnorrPubKey} {nPoolOffset : Int32} {sig : CSchnorrSig}
    {privNonce : CSchnorrPrivNonce}
    (h : CvnSignPartialWithKey cr vNoncePrivate hashToSign sum nPoolOffset = some (sig, privNonce)) :
    vNoncePrivate[nPoolOffset.toInt.toNat]? = some privNonce := by
  unfold CvnSignPartialWithKey at h
  split_ifs at h
  split at h
  · cases h
  · rename_i found hFound
    split_ifs at h
    simp only [Option.some.injEq, Prod.mk.injEq] at h
    rw [hFound, h.2]

/-- A partial signature's nonce use is the pool entry at the offset it was
given. -/
theorem CvnSignPartial_use {cr : SigningCrypto} {g : PocGlobals}
    {vNoncePrivate : List CSchnorrPrivNonce} {nTipHeight : Int32} {nCreationTime : UInt32}
    {hashPrevBlock : uint256} {nNextCreator nNodeId : UInt32} {vMissingSignerIds : List UInt32}
    {nPoolOffset : Int32} {signature : CCvnPartialSignature} {u : NonceUse}
    (h : CvnSignPartial cr g vNoncePrivate nTipHeight nCreationTime hashPrevBlock nNextCreator
      nNodeId vMissingSignerIds nPoolOffset = some (signature, some u)) :
    u.nPoolOffset = nPoolOffset ∧ vNoncePrivate[nPoolOffset.toInt.toNat]? = some u.privNonce := by
  unfold CvnSignPartial at h
  split_ifs at h with hZero hCvn hLone
  · simp at h
  · simp only [Option.bind_eq_bind, Option.bind_eq_some_iff] at h
    obtain ⟨sum, _, ⟨sig, privNonce⟩, hKey, cvn, _, hVerified⟩ := h
    split_ifs at hVerified
    simp only [Option.some.injEq, Prod.mk.injEq] at hVerified
    rw [← hVerified.2]
    exact ⟨rfl, CvnSignPartialWithKey_nonce hKey⟩

/-- `addAndRelay` appends at most the signature it was given, with its nonce
use. -/
theorem addAndRelay_signsAt {cr : SigningCrypto} {tip : CBlockIndex} {nTipHeight : Int32}
    {n : SigningNode} {msg : CCvnPartialSignature} {use : Option NonceUse}
    (hUse : ∀ u, use = some u → u.nPoolOffset = poolOffset tip (ownPool n) ∧
      n.vNoncePrivate[(poolOffset tip (ownPool n)).toInt.toNat]? = some u.privNonce) :
    SignsAt tip n (addAndRelay cr nTipHeight n msg use) := by
  unfold addAndRelay
  split
  · rename_i sigHolder msg' _
    refine ⟨rfl, rfl, rfl, [(msg', use)], rfl, ?_⟩
    intro p hp u hu
    rw [List.mem_singleton] at hp
    subst hp
    exact hUse u hu
  · exact SignsAt.refl tip n

/-- **One signature.** What `SendCVNSignature` relays was signed with the
private nonce at the tip's offset in the node's own pool. -/
theorem SendCVNSignature_signsAt (cr : SigningCrypto) (it : Iteration) (n : SigningNode)
    (s : POCStateHolder) (vMissingSignatures : List UInt32) :
    SignsAt it.tip n (SendCVNSignature cr it n s vMissingSignatures).2.1 := by
  unfold SendCVNSignature
  split_ifs
  · exact SignsAt.refl _ n
  · refine (withOwnPool_signsAt it.tip n).trans ?_
    dsimp only
    split
    · exact SignsAt.refl _ _
    · rename_i signature use hSign
      split
      · exact SignsAt.refl _ _
      · apply addAndRelay_signsAt
        intro u hu
        subst hu
        exact CvnSignPartial_use hSign

theorem signSets_signsAt (cr : SigningCrypto) (it : Iteration) (entries : List (List UInt32))
    (n : SigningNode) (s : POCStateHolder) : SignsAt it.tip n (signSets cr it entries n s).1 := by
  induction entries generalizing n s with
  | nil => exact SignsAt.refl _ n
  | cons entry entries ih =>
    unfold signSets
    split_ifs
    · exact (SendCVNSignature_signsAt cr it n s entry).trans (ih _ _)
    · exact ih n s

/-! ## The handlers and the loop -/

/-- The upkeep of the nonce pools leaves the node's own pool and its private
nonces as they are, and relays nothing: a run without pool renewals. -/
def KeepsOwnPool (env : ThreadEnv) : Prop :=
  ∀ tip s n, SignsAt tip n (env.maintainNoncePools s n)

section Handlers

variable (env : ThreadEnv) (it : Iteration) (n : SigningNode) (s : POCStateHolder)

theorem handleCreateSignature_signsAt : SignsAt it.tip n (handleCreateSignature env it n s).1 := by
  unfold handleCreateSignature
  split_ifs
  · have hSend := SendCVNSignature_signsAt env.cr it n s (FindSignerIDsWithMissingNonces n.g)
    revert hSend
    rcases SendCVNSignature env.cr it n s (FindSignerIDsWithMissingNonces n.g) with ⟨_ | _, n', s'⟩ <;>
      exact id
  · exact SignsAt.refl _ n

theorem handleCompleteSignatureSets_signsAt :
    SignsAt it.tip n (handleCompleteSignatureSets env it n s).1 :=
  signSets_signsAt env.cr it _ n s

theorem handleWaitingForSignatures_signsAt {n' : SigningNode} {s' : POCStateHolder}
    (h : handleWaitingForSignatures env it n s = some (n', s')) : SignsAt it.tip n n' := by
  unfold handleWaitingForSignatures at h
  split_ifs at h
  · exact SignsAt.of_some_eq h (SignsAt.refl _ n)
  · -- the timer: no retry leaves the node, a retry sends once
    dsimp only at h
    split at h
    · cases h
    · exact SignsAt.of_some_eq h (SignsAt.refl _ n)
    · exact SignsAt.of_some_eq h (SignsAt.refl _ n)
    · refine SignsAt.of_some_eq h ?_
      dsimp only
      split
      · exact SignsAt.refl _ n
      · split_ifs
        · exact SendCVNSignature_signsAt env.cr it n s _
        · exact SignsAt.refl _ n

variable {env}

theorem handleWaitingForBlockPropagation_signsAt (hKeep : KeepsOwnPool env) :
    SignsAt it.tip n (handleWaitingForBlockPropagation env it n s).1 := by
  unfold handleWaitingForBlockPropagation
  split_ifs
  · exact SignsAt.refl _ n
  · exact hKeep _ _ n

theorem handleWaitingForCvnData_signsAt (hKeep : KeepsOwnPool env) :
    SignsAt it.tip n (handleWaitingForCvnData env n s).1 := by
  unfold handleWaitingForCvnData
  split_ifs
  · exact hKeep _ _ n
  · exact SignsAt.refl _ n

theorem handleInit_signsAt (hKeep : KeepsOwnPool env) :
    SignsAt it.tip n (handleInit env it n s).1 := by
  unfold handleInit
  dsimp only
  split
  · exact hKeep _ _ n
  · exact SignsAt.refl _ n

/-- **One handler.** Whatever the state, the handler relays only signatures
made with the pool entry at the tip's offset. -/
theorem runHandler_signsAt (hKeep : KeepsOwnPool env) {n' : SigningNode} {s' : POCStateHolder}
    (h : runHandler env it n s = some (n', s')) : SignsAt it.tip n n' := by
  unfold runHandler at h
  split at h
  · exact SignsAt.of_some_eq h (handleInit_signsAt it n s hKeep)
  · exact SignsAt.of_some_eq h (handleWaitingForBlockPropagation_signsAt it n s hKeep)
  · exact SignsAt.of_some_eq h (handleCreateSignature_signsAt env it n s)
  · exact SignsAt.of_some_eq h (handleCreateSignature_signsAt env it n s)
  · exact handleWaitingForSignatures_signsAt env it n s h
  · exact handleWaitingForSignatures_signsAt env it n s h
  · exact SignsAt.of_some_eq h (SignsAt.refl _ n)
  · exact SignsAt.of_some_eq h (SignsAt.refl _ n)
  · exact SignsAt.of_some_eq h (handleWaitingForCvnData_signsAt it n s hKeep)
  · exact SignsAt.of_some_eq h (handleCompleteSignatureSets_signsAt env it n s)

end Handlers

theorem resetOnTip_signsAt (tip : CBlockIndex) (it : Iteration) (n : SigningNode)
    (s : POCStateHolder) : SignsAt tip n (resetOnTip it n s).1 := by
  unfold resetOnTip
  split_ifs <;> exact SignsAt.of_frame rfl rfl rfl rfl

variable {env : ThreadEnv}

/-- **One pass of the loop.** -/
theorem pocIteration_signsAt (hKeep : KeepsOwnPool env) {it : Iteration} {n n' : SigningNode}
    {s s' : POCStateHolder} (h : pocIteration env it n s = some (n', s')) : SignsAt it.tip n n' := by
  unfold pocIteration at h
  dsimp only at h
  split_ifs at h
  · exact SignsAt.of_some_eq h (SignsAt.refl _ n)
  · rw [Option.map_eq_some_iff] at h
    obtain ⟨⟨n'', s''⟩, hRun, hEq⟩ := h
    have hNode : n'' = n' := (Prod.mk.inj hEq).1
    rw [← hNode]
    exact (resetOnTip_signsAt it.tip it n _).trans (runHandler_signsAt _ _ _ hKeep hRun)

/-- A peer's signature taken in changes the holder only; a pass at `tip`
relays only what it signs at `tip`. -/
theorem ThreadEvent.apply_signsAt (hKeep : KeepsOwnPool env) {tip : CBlockIndex}
    {e : ThreadEvent} (hTip : ∀ it, e = .iterate it → it.tip = tip)
    {ns ns' : SigningNode × POCStateHolder} (h : e.apply env ns = some ns') : SignsAt tip ns.1 ns'.1 := by
  cases e with
  | iterate it =>
    rw [← hTip it rfl]
    exact pocIteration_signsAt hKeep h
  | receive msg =>
    simp only [ThreadEvent.apply] at h
    split at h
    · rw [Option.some.injEq] at h
      subst h
      exact SignsAt.of_frame rfl rfl rfl rfl
    · rw [Option.some.injEq] at h
      subst h
      exact SignsAt.refl _ _

/-- **Every run at one tip.** Over any sequence of passes at the tip `tip`
and received signatures, with pool upkeep that keeps the node's own pool,
every signature the node relays was made with the private nonce at `tip`'s
offset in that pool. -/
theorem runThread_signsAt (hKeep : KeepsOwnPool env) {tip : CBlockIndex}
    {events : List ThreadEvent} (hTip : ∀ it, ThreadEvent.iterate it ∈ events → it.tip = tip)
    {ns ns' : SigningNode × POCStateHolder} (h : runThread env events ns = some ns') :
    SignsAt tip ns.1 ns'.1 := by
  induction events generalizing ns with
  | nil =>
    rw [runThread, Option.some.injEq] at h
    subst h
    exact SignsAt.refl _ _
  | cons e es ih =>
    rw [runThread, Option.bind_eq_some_iff] at h
    obtain ⟨mid, hStep, hRest⟩ := h
    have hHead : SignsAt tip ns.1 mid.1 :=
      ThreadEvent.apply_signsAt hKeep (fun it hIt => hTip it (hIt ▸ List.mem_cons_self ..)) hStep
    exact hHead.trans (ih (fun it hIt => hTip it (List.mem_cons_of_mem _ hIt)) hRest)

/-! ## A block-spacing timeout signs twice with one nonce -/

/-- CVN `id`'s pool of three public nonces, added at height 10. -/
def threeNoncePool (id : UInt32) : CNoncePool :=
  { nCvnId := id, hashRootBlock := 0, nCreationTime := 0, msgSig := ⟨0⟩, nHeightAdded := 10,
    vPublicNonces := [1, 2, 3].map fun k => ⟨BitVec.ofNat 512 (10 * id.toNat + k)⟩ }

/-- Two CVNs, `1` and `2`, each with a pool added at height 10. -/
def twoCvnGlobals : PocGlobals :=
  { (default : PocGlobals) with
    mapCVNs := ⟨[(1, signerEntry 1), (2, signerEntry 2)], by decide⟩
    mapNoncePool := ⟨[(1, threeNoncePool 1), (2, threeNoncePool 2)], by decide⟩ }

/-- Primitives for tests: the hash of a preimage is the sum of its bytes,
every signature verifies, and a signature is built from what it signs. -/
def byteSumCrypto : SigningCrypto where
  ec := ⟨fun bytes => BitVec.ofNat 256 (bytes.map UInt8.toNat).sum, fun _ _ _ => true,
    fun _ _ _ _ => true, List.head?, List.head?⟩
  signHash h := some ⟨BitVec.ofNat 512 h.toNat⟩
  signPartial h sum k := ⟨BitVec.ofNat 512 (h.toNat + sum.data.toNat + k.data.toNat)⟩
  msgHash msg := BitVec.ofNat 256 msg.nCreatorId.toNat

/-- CVN 1, with the private nonces of its pool, before the thread starts. -/
def cvnOneNode : SigningNode :=
  { g := twoCvnGlobals, sigHolder := SignatureHolder.SetNull,
    vNoncePrivate := [⟨1⟩, ⟨2⟩, ⟨3⟩], nCvnNodeId := 1, published := [] }

def initState : POCStateHolder :=
  { state := .INIT, nNodeId := 1, nNextCreator := 0, nLastCreator := 0, nSleep := 0,
    commonRxs := [], pindexLastTip := default, pindexPrev := default }

/-- The tip at height 12. -/
def tipTwelve : CBlockIndex := { (default : CBlockIndex) with hashBlock := 12, nHeight := 12 }

/-- Pool upkeep that does nothing, no block made, always enough signatures. -/
def quietEnv : ThreadEnv := ⟨byteSumCrypto, fun _ _ => true, fun _ _ => false, fun _ n => n⟩

/-- Three passes at the tip of height 12: the reset for the new tip with CVN 2
next, the signature for creator 2, then, when CVN 2's slot has passed and
CVN 1 is next, the block-spacing timeout and the signature for creator 1. -/
def blockSpacingTimeoutRun : List ThreadEvent :=
  [.iterate ⟨tipTwelve, 100, 2⟩, .iterate ⟨tipTwelve, 100, 2⟩, .iterate ⟨tipTwelve, 200, 1⟩]

theorem blockSpacingTimeout_reuses_nonce :
    ∃ n s, runThread quietEnv blockSpacingTimeoutRun (cvnOneNode, initState) = some (n, s) ∧
      reusesNonce n.published = true :=
  ⟨_, _, rfl, by decide +kernel⟩

end FairCoin.Ports.PocSigning
