import FairCoin.Ports.Interpreter

/-!
# Script flags only reject

Each verification flag of the interpreter adds a check, with two exceptions:
`P2SH` adds a second evaluation, which runs only after the first has
succeeded, and `DISCOURAGE_UPGRADABLE_NOPS` rejects the upgradable NOPs, one
of which `CHECKLOCKTIMEVERIFY` turns into a check that can pass. So for flag
words `F ⊆ G`, where `G` does not discourage upgradable NOPs, whatever
succeeds under `G` succeeds under `F`, with the same result
(`OkImplies`, from `FairCoin.Verified.OkImplies`).

The proof follows the interpreter's layers. A flag that `F` has, `G` has
(`hasFlag_of_subset`); so a guard on a flag fails under `F` only where it
fails under `G`, and a number decoded under `G`'s minimality rule decodes to
the same value under `F`'s. Each case of the switch that reads a flag has its
lemma, the others are the same computation under both; one op, the loop over
the script and `EvalScript` then compose by `OkImplies.bind`. In
`VerifyScript` the pay-to-script-hash evaluation is where the two runs part:
if `F` lacks `P2SH`, it lacks `CLEANSTACK` as well and accepts as soon as
`scriptPubKey` leaves a true top element.

## Main results

* `evalScript_okImplies` — an evaluation that succeeds under `G` succeeds
  under `F` with the same stack.
* `verifyScript_monotone` — a script pair that verifies under `G` verifies
  under `F`.
-/

namespace FairCoin.Ports.ScriptFlags

open FairCoin.Verified FairCoin.Verified.Checks FairCoin.Ports.Primitives FairCoin.Ports.Script
open FairCoin.Ports.Interpreter

/-! ## Flag words -/

/-- A flag of a flag word is a flag of every word that contains it. -/
theorem hasFlag_of_subset {F G m : UInt32} (hSub : F &&& G = F) (hF : hasFlag F m = true) :
    hasFlag G m = true := by
  unfold hasFlag at hF ⊢
  rw [bne_iff_ne] at hF ⊢
  intro hG
  apply hF
  calc F &&& m = F &&& G &&& m := by rw [hSub]
    _ = F &&& (G &&& m) := UInt32.and_assoc F G m
    _ = 0 := by rw [hG, UInt32.and_zero]

theorem hasFlag_eq_false_of_subset {F G m : UInt32} (hSub : F &&& G = F)
    (hG : hasFlag G m = false) : hasFlag F m = false := by
  cases hF : hasFlag F m
  · rfl
  · rw [hasFlag_of_subset hSub hF] at hG
    cases hG

/-- The condition of a guard on a flag, `(flags & mask) && cond`. -/
theorem hasFlag_and_of_subset {F G m : UInt32} {b : Bool} (hSub : F &&& G = F)
    (h : (hasFlag F m && b) = true) : (hasFlag G m && b) = true := by
  rw [Bool.and_eq_true] at h ⊢
  exact ⟨hasFlag_of_subset hSub h.1, h.2⟩

/-! ## Numbers: the cases that read only `fRequireMinimal` -/

/-- A number read under the minimality rule is read alike without it. -/
theorem scriptNum_okImplies {fLax fStrict : Bool} (hImp : fLax = true → fStrict = true)
    (vch : valtype) (nMaxNumSize : Nat) :
    OkImplies (scriptNum vch fStrict nMaxNumSize) (scriptNum vch fLax nMaxNumSize) := by
  intro value h
  rw [scriptNum, orFail_eq_ok] at h ⊢
  exact CScriptNum_of_minimal h hImp

theorem checkLockTime_eq_ok {fRequireMinimal : Bool} {checker : BaseSignatureChecker}
    {s s' : EvalState} (h : checkLockTime fRequireMinimal checker s = .ok s') : s' = s := by
  obtain ⟨stack, altstack, vfExec, pbegincodehash, nOpCount⟩ := s
  rcases stack with _ | ⟨top, stack⟩
  · cases h
  · simp only [checkLockTime, bind_eq_ok, failIf_eq_ok, pure_eq_ok] at h
    obtain ⟨_, _, _, _, _, _, hEq⟩ := h
    exact hEq.symm

section Minimal

variable {fLax fStrict : Bool} (hImp : fLax = true → fStrict = true)
include hImp

theorem checkLockTime_okImplies (checker : BaseSignatureChecker) (s : EvalState) :
    OkImplies (checkLockTime fStrict checker s) (checkLockTime fLax checker s) := by
  obtain ⟨stack, altstack, vfExec, pbegincodehash, nOpCount⟩ := s
  rcases stack with _ | ⟨top, stack⟩
  · exact OkImplies.refl _
  · exact OkImplies.bind (scriptNum_okImplies hImp top 5) fun _ => OkImplies.refl _

theorem opPick_okImplies (fRoll : Bool) (s : EvalState) :
    OkImplies (opPick fStrict fRoll s) (opPick fLax fRoll s) := by
  obtain ⟨stack, altstack, vfExec, pbegincodehash, nOpCount⟩ := s
  rcases stack with _ | ⟨top, _ | ⟨x, stack⟩⟩
  · exact OkImplies.refl _
  · exact OkImplies.refl _
  · exact OkImplies.bind (scriptNum_okImplies hImp top 4) fun _ => OkImplies.refl _

theorem opUnary_okImplies (op : UnaryOp) (s : EvalState) :
    OkImplies (opUnary fStrict op s) (opUnary fLax op s) := by
  obtain ⟨stack, altstack, vfExec, pbegincodehash, nOpCount⟩ := s
  rcases stack with _ | ⟨vch, stack⟩
  · exact OkImplies.refl _
  · exact OkImplies.bind (scriptNum_okImplies hImp vch 4) fun _ => OkImplies.refl _

theorem opBinary_okImplies (op : BinaryOp) (s : EvalState) :
    OkImplies (opBinary fStrict op s) (opBinary fLax op s) := by
  obtain ⟨stack, altstack, vfExec, pbegincodehash, nOpCount⟩ := s
  rcases stack with _ | ⟨x2, _ | ⟨x1, stack⟩⟩
  · exact OkImplies.refl _
  · exact OkImplies.refl _
  · refine OkImplies.bind (scriptNum_okImplies hImp x1 4) fun _ => ?_
    exact OkImplies.bind (scriptNum_okImplies hImp x2 4) fun _ => OkImplies.refl _

theorem opWithin_okImplies (s : EvalState) :
    OkImplies (opWithin fStrict s) (opWithin fLax s) := by
  obtain ⟨stack, altstack, vfExec, pbegincodehash, nOpCount⟩ := s
  rcases stack with _ | ⟨x3, _ | ⟨x2, _ | ⟨x1, stack⟩⟩⟩
  · exact OkImplies.refl _
  · exact OkImplies.refl _
  · exact OkImplies.refl _
  · refine OkImplies.bind (scriptNum_okImplies hImp x1 4) fun _ => ?_
    refine OkImplies.bind (scriptNum_okImplies hImp x2 4) fun _ => ?_
    exact OkImplies.bind (scriptNum_okImplies hImp x3 4) fun _ => OkImplies.refl _

end Minimal

/-! ## Encodings, and the other cases that read a flag -/

section Subset

variable {F G : UInt32} (hSub : F &&& G = F)
include hSub

theorem fRequireMinimal_of_subset (h : fRequireMinimal F = true) : fRequireMinimal G = true :=
  hasFlag_of_subset hSub h

theorem CheckSignatureEncoding_okImplies (crypto : ScriptCrypto) (vchSig : valtype) :
    OkImplies (CheckSignatureEncoding crypto vchSig G) (CheckSignatureEncoding crypto vchSig F) := by
  unfold CheckSignatureEncoding
  split_ifs
  · exact OkImplies.refl _
  · refine OkImplies.bind (OkImplies.failIf_of_imp (hasFlag_and_of_subset hSub)) fun _ => ?_
    refine OkImplies.bind ?_ fun _ => OkImplies.failIf_of_imp (hasFlag_and_of_subset hSub)
    exact OkImplies.onlyIf_of_imp (hasFlag_of_subset hSub) fun _ => OkImplies.refl _

theorem CheckPubKeyEncoding_okImplies (vchPubKey : valtype) :
    OkImplies (CheckPubKeyEncoding vchPubKey G) (CheckPubKeyEncoding vchPubKey F) :=
  OkImplies.failIf_of_imp (hasFlag_and_of_subset hSub)

theorem opUpgradableNop_okImplies (s : EvalState) :
    OkImplies (opUpgradableNop G s) (opUpgradableNop F s) :=
  OkImplies.bind (OkImplies.failIf_of_imp (hasFlag_of_subset hSub)) fun _ => OkImplies.refl _

theorem multiSigLoop_okImplies (crypto : ScriptCrypto) (checker : BaseSignatureChecker)
    (scriptCode : CScript) (sigs keys : List valtype) :
    OkImplies (multiSigLoop crypto G checker scriptCode sigs keys)
      (multiSigLoop crypto F checker scriptCode sigs keys) := by
  induction keys generalizing sigs with
  | nil => cases sigs <;> exact OkImplies.refl _
  | cons vchPubKey keys ih =>
    cases sigs with
    | nil => exact OkImplies.refl _
    | cons vchSig sigs =>
      refine OkImplies.bind (CheckSignatureEncoding_okImplies hSub crypto vchSig) fun _ => ?_
      refine OkImplies.bind (CheckPubKeyEncoding_okImplies hSub vchPubKey) fun _ => ?_
      dsimp only
      generalize (if checker.CheckSig vchSig vchPubKey scriptCode then sigs else vchSig :: sigs) =
        sigsLeft
      split_ifs
      · exact OkImplies.refl _
      · exact ih sigsLeft

theorem opCheckSig_okImplies (crypto : ScriptCrypto) (checker : BaseSignatureChecker)
    (fVerify : Bool) (s : EvalState) :
    OkImplies (opCheckSig crypto G checker fVerify s) (opCheckSig crypto F checker fVerify s) := by
  obtain ⟨stack, altstack, vfExec, pbegincodehash, nOpCount⟩ := s
  rcases stack with _ | ⟨vchPubKey, _ | ⟨vchSig, stack⟩⟩
  · exact OkImplies.refl _
  · exact OkImplies.refl _
  · refine OkImplies.bind (CheckSignatureEncoding_okImplies hSub crypto vchSig) fun _ => ?_
    exact OkImplies.bind (CheckPubKeyEncoding_okImplies hSub vchPubKey) fun _ => OkImplies.refl _

/-- `OP_CHECKMULTISIG` reads the flags in its two counts, in the signature
loop and in the `NULLDUMMY` test; every other step is the same under both. -/
theorem opCheckMultiSig_okImplies (crypto : ScriptCrypto) (checker : BaseSignatureChecker)
    (fVerify : Bool) (s : EvalState) :
    OkImplies (opCheckMultiSig crypto G checker fVerify s)
      (opCheckMultiSig crypto F checker fVerify s) := by
  have hNum := scriptNum_okImplies (fRequireMinimal_of_subset hSub)
  unfold opCheckMultiSig
  refine OkImplies.bind_right _ fun top => ?_
  refine OkImplies.bind (hNum top 4) fun nKeys => ?_
  refine OkImplies.bind_right _ fun _ => OkImplies.bind_right _ fun _ => ?_
  refine OkImplies.bind_right _ fun _ => ?_
  refine OkImplies.bind (hNum _ 4) fun nSigs => ?_
  refine OkImplies.bind_right _ fun _ => OkImplies.bind_right _ fun _ => ?_
  refine OkImplies.bind (multiSigLoop_okImplies hSub crypto checker _ _ _) fun fSuccess => ?_
  split
  · exact OkImplies.bind (OkImplies.failIf_of_imp (hasFlag_and_of_subset hSub)) fun _ =>
      OkImplies.refl _
  · exact OkImplies.refl _

/-- Under `F` the `CLEANSTACK` test asks for what it asks under `G`, and its
`assert` holds. -/
theorem checkCleanStack_okImplies
    (hClean : hasFlag F SCRIPT_VERIFY_CLEANSTACK = true → hasFlag F SCRIPT_VERIFY_P2SH = true)
    (stack : List valtype) :
    OkImplies (checkCleanStack G stack) (checkCleanStack F stack) := by
  refine OkImplies.onlyIf_of_imp (hasFlag_of_subset hSub) fun hC => ?_
  refine OkImplies.bind (OkImplies.failIf_of_imp ?_) fun _ => OkImplies.refl _
  intro hAssert
  rw [hClean hC] at hAssert
  cases hAssert

/-! ## One op, the loop, `EvalScript` -/

section NoDiscourage

variable (hNop : hasFlag G SCRIPT_VERIFY_DISCOURAGE_UPGRADABLE_NOPS = false)
include hNop

/-- Where `G` checks the lock time and `F` does not, `F` sees an upgradable
NOP, which it does not discourage since `G` does not. -/
theorem opCheckLockTimeVerify_okImplies (checker : BaseSignatureChecker) (s : EvalState) :
    OkImplies (opCheckLockTimeVerify G checker s) (opCheckLockTimeVerify F checker s) := by
  have hNopF := hasFlag_eq_false_of_subset hSub hNop
  unfold opCheckLockTimeVerify
  cases hG : hasFlag G SCRIPT_VERIFY_CHECKLOCKTIMEVERIFY <;>
    cases hF : hasFlag F SCRIPT_VERIFY_CHECKLOCKTIMEVERIFY
  case false.false => exact opUpgradableNop_okImplies hSub s
  case false.true =>
    rw [hasFlag_of_subset hSub hF] at hG
    cases hG
  case true.false =>
    intro s' h
    rw [checkLockTime_eq_ok h]
    unfold opUpgradableNop
    rw [hNopF]
    rfl
  case true.true =>
    exact checkLockTime_okImplies (fRequireMinimal_of_subset hSub) checker s

theorem execOp_okImplies (crypto : ScriptCrypto) (checker : BaseSignatureChecker) (fExec : Bool)
    (rest : CScript) (s : EvalState) (c : OpCase) :
    OkImplies (execOp crypto G checker fExec rest s c) (execOp crypto F checker fExec rest s c) := by
  have hImp := fRequireMinimal_of_subset hSub
  cases c with
  | plain op => exact OkImplies.refl _
  | OP_CHECKLOCKTIMEVERIFY => exact opCheckLockTimeVerify_okImplies hSub hNop checker s
  | upgradableNop => exact opUpgradableNop_okImplies hSub s
  | OP_PICK fRoll => exact opPick_okImplies hImp fRoll s
  | unary op => exact opUnary_okImplies hImp op s
  | binary op => exact opBinary_okImplies hImp op s
  | OP_WITHIN => exact opWithin_okImplies hImp s
  | OP_CHECKSIG fVerify => exact opCheckSig_okImplies hSub crypto checker fVerify s
  | OP_CHECKMULTISIG fVerify => exact opCheckMultiSig_okImplies hSub crypto checker fVerify s

theorem runOp_okImplies (crypto : ScriptCrypto) (checker : BaseSignatureChecker) (fExec : Bool)
    (opcode : UInt8) (vchPushValue rest : CScript) (s : EvalState) :
    OkImplies (runOp crypto G checker fExec opcode vchPushValue rest s)
      (runOp crypto F checker fExec opcode vchPushValue rest s) := by
  unfold runOp
  split_ifs
  · exact OkImplies.bind (OkImplies.failIf_of_imp (hasFlag_and_of_subset hSub)) fun _ =>
      OkImplies.refl _
  · exact execOp_okImplies hSub hNop crypto checker fExec rest s _
  · exact OkImplies.refl _

theorem step_okImplies (crypto : ScriptCrypto) (checker : BaseSignatureChecker) (opcode : UInt8)
    (vchPushValue rest : CScript) (s : EvalState) :
    OkImplies (step crypto G checker opcode vchPushValue rest s)
      (step crypto F checker opcode vchPushValue rest s) := by
  unfold step
  refine OkImplies.bind_right _ fun _ => OkImplies.bind_right _ fun _ => ?_
  refine OkImplies.bind_right _ fun _ => ?_
  exact OkImplies.bind (runOp_okImplies hSub hNop crypto checker _ opcode vchPushValue rest _)
    fun _ => OkImplies.refl _

/-- The loop, by induction on the fuel: each op read is the same under both
flag words, and `step_okImplies` carries the state across it. -/
theorem evalLoop_okImplies (crypto : ScriptCrypto) (checker : BaseSignatureChecker)
    (fuel : Nat) (pc : CScript) (s : EvalState) :
    OkImplies (evalLoop crypto G checker fuel pc s) (evalLoop crypto F checker fuel pc s) := by
  induction fuel generalizing pc s with
  | zero => exact OkImplies.refl _
  | succ fuel ih =>
    cases pc with
    | nil => exact OkImplies.refl _
    | cons b tail =>
      simp only [evalLoop]
      cases GetOp (b :: tail) with
      | none => exact OkImplies.refl _
      | some op =>
        obtain ⟨opcode, vchPushValue, rest⟩ := op
        exact OkImplies.bind (step_okImplies hSub hNop crypto checker opcode vchPushValue rest s)
          fun s' => ih rest s'

theorem evalScript_okImplies (crypto : ScriptCrypto) (checker : BaseSignatureChecker)
    (stack : List valtype) (script : CScript) :
    OkImplies (EvalScript crypto stack script G checker)
      (EvalScript crypto stack script F checker) := by
  refine OkImplies.bind_right _ fun _ => ?_
  exact OkImplies.bind (evalLoop_okImplies hSub hNop crypto checker _ script _) fun _ =>
    OkImplies.refl _

/-! ## `VerifyScript` -/

theorem evalP2SH_okImplies (crypto : ScriptCrypto) (checker : BaseSignatureChecker)
    (scriptSig : CScript) (stackCopy : List valtype) :
    OkImplies (evalP2SH crypto scriptSig stackCopy G checker)
      (evalP2SH crypto scriptSig stackCopy F checker) := by
  refine OkImplies.bind_right _ fun _ => ?_
  cases stackCopy with
  | nil => exact OkImplies.refl _
  | cons pubKeySerialized stack =>
    exact OkImplies.bind (evalScript_okImplies hSub hNop crypto checker stack pubKeySerialized)
      fun _ => OkImplies.refl _

/-- What follows the test of `scriptPubKey`'s result. Where `F` lacks `P2SH`
it also lacks `CLEANSTACK`, and nothing is left to fail. -/
theorem verifyTail_okImplies
    (hClean : hasFlag F SCRIPT_VERIFY_CLEANSTACK = true → hasFlag F SCRIPT_VERIFY_P2SH = true)
    (crypto : ScriptCrypto) (checker : BaseSignatureChecker)
    (scriptSig scriptPubKey : CScript) (stackCopy stack : List valtype) :
    OkImplies
      ((if hasFlag G SCRIPT_VERIFY_P2SH && IsPayToScriptHash scriptPubKey then
          evalP2SH crypto scriptSig stackCopy G checker
        else pure stack) >>= checkCleanStack G)
      ((if hasFlag F SCRIPT_VERIFY_P2SH && IsPayToScriptHash scriptPubKey then
          evalP2SH crypto scriptSig stackCopy F checker
        else pure stack) >>= checkCleanStack F) := by
  cases hF : hasFlag F SCRIPT_VERIFY_P2SH
  · have hNoClean : hasFlag F SCRIPT_VERIFY_CLEANSTACK = false := by
      cases hC : hasFlag F SCRIPT_VERIFY_CLEANSTACK
      · rfl
      · rw [hClean hC] at hF
        cases hF
    have hAccept : (pure stack >>= checkCleanStack F : Except ScriptError Unit) = .ok () := by
      simp [checkCleanStack, onlyIf, hNoClean]
    simp only [Bool.false_and, Bool.false_eq_true, if_false, hAccept]
    exact OkImplies.ok_unit_right _
  · rw [hasFlag_of_subset hSub hF]
    refine OkImplies.bind ?_ fun stack => checkCleanStack_okImplies hSub hClean stack
    split_ifs
    · exact evalP2SH_okImplies hSub hNop crypto checker scriptSig stackCopy
    · exact OkImplies.refl _

end NoDiscourage

end Subset

/-- Script verification is monotone in its flags: for flag words `F ⊆ G`,
where `G` does not discourage upgradable NOPs and `F` has `CLEANSTACK` only
with `P2SH`, a script pair that verifies under `G` verifies under `F`. -/
theorem verifyScript_monotone (crypto : ScriptCrypto) (checker : BaseSignatureChecker)
    (scriptSig scriptPubKey : CScript) {F G : UInt32} (hSub : F &&& G = F)
    (hNop : hasFlag G SCRIPT_VERIFY_DISCOURAGE_UPGRADABLE_NOPS = false)
    (hClean : hasFlag F SCRIPT_VERIFY_CLEANSTACK = true → hasFlag F SCRIPT_VERIFY_P2SH = true)
    (hOk : VerifyScript crypto scriptSig scriptPubKey G checker = .ok ()) :
    VerifyScript crypto scriptSig scriptPubKey F checker = .ok () := by
  have hRun : OkImplies (VerifyScript crypto scriptSig scriptPubKey G checker)
      (VerifyScript crypto scriptSig scriptPubKey F checker) := by
    refine OkImplies.bind (OkImplies.failIf_of_imp (hasFlag_and_of_subset hSub)) fun _ => ?_
    refine OkImplies.bind (evalScript_okImplies hSub hNop crypto checker [] scriptSig)
      fun stackCopy => ?_
    refine OkImplies.bind (evalScript_okImplies hSub hNop crypto checker stackCopy scriptPubKey)
      fun stack => ?_
    refine OkImplies.bind_right (requireTrue stack) fun _ => ?_
    exact verifyTail_okImplies hSub hNop hClean crypto checker scriptSig scriptPubKey stackCopy stack
  exact hRun () hOk

/-- The nine flags that only reject: every verification flag but
`DISCOURAGE_UPGRADABLE_NOPS`. -/
def restrictingFlags : UInt32 :=
  SCRIPT_VERIFY_P2SH ||| SCRIPT_VERIFY_STRICTENC ||| SCRIPT_VERIFY_DERSIG ||| SCRIPT_VERIFY_LOW_S |||
    SCRIPT_VERIFY_NULLDUMMY ||| SCRIPT_VERIFY_SIGPUSHONLY ||| SCRIPT_VERIFY_MINIMALDATA |||
    SCRIPT_VERIFY_CLEANSTACK ||| SCRIPT_VERIFY_CHECKLOCKTIMEVERIFY

/-- `OP_1` against `OP_1 OP_EQUAL` verifies under all nine flags, and so under
`P2SH` and `CLEANSTACK` alone. -/
theorem verifyScript_monotone_equal :
    (SCRIPT_VERIFY_P2SH ||| SCRIPT_VERIFY_CLEANSTACK) &&& restrictingFlags =
        SCRIPT_VERIFY_P2SH ||| SCRIPT_VERIFY_CLEANSTACK ∧
      hasFlag restrictingFlags SCRIPT_VERIFY_DISCOURAGE_UPGRADABLE_NOPS = false ∧
      (hasFlag (SCRIPT_VERIFY_P2SH ||| SCRIPT_VERIFY_CLEANSTACK) SCRIPT_VERIFY_CLEANSTACK = true →
        hasFlag (SCRIPT_VERIFY_P2SH ||| SCRIPT_VERIFY_CLEANSTACK) SCRIPT_VERIFY_P2SH = true) ∧
      VerifyScript identityCrypto [OP_1] [OP_1, OP_EQUAL] restrictingFlags acceptingChecker =
        .ok () ∧
      VerifyScript identityCrypto [OP_1] [OP_1, OP_EQUAL]
        (SCRIPT_VERIFY_P2SH ||| SCRIPT_VERIFY_CLEANSTACK) acceptingChecker = .ok () := by
  have hSub : (SCRIPT_VERIFY_P2SH ||| SCRIPT_VERIFY_CLEANSTACK) &&& restrictingFlags =
      SCRIPT_VERIFY_P2SH ||| SCRIPT_VERIFY_CLEANSTACK := by decide
  have hNop : hasFlag restrictingFlags SCRIPT_VERIFY_DISCOURAGE_UPGRADABLE_NOPS = false := by
    decide
  have hClean : hasFlag (SCRIPT_VERIFY_P2SH ||| SCRIPT_VERIFY_CLEANSTACK)
      SCRIPT_VERIFY_CLEANSTACK = true →
      hasFlag (SCRIPT_VERIFY_P2SH ||| SCRIPT_VERIFY_CLEANSTACK) SCRIPT_VERIFY_P2SH = true := by
    decide
  have hOk : VerifyScript identityCrypto [OP_1] [OP_1, OP_EQUAL] restrictingFlags
      acceptingChecker = .ok () := by decide
  exact ⟨hSub, hNop, hClean, hOk,
    verifyScript_monotone identityCrypto acceptingChecker [OP_1] [OP_1, OP_EQUAL] hSub hNop hClean
      hOk⟩

/-- Without the condition on `DISCOURAGE_UPGRADABLE_NOPS` the monotonicity
fails: `OP_CHECKLOCKTIMEVERIFY` passes where its flag is on, and is a
discouraged NOP where only that flag is gone. -/
theorem discourageUpgradableNops_not_monotone :
    VerifyScript identityCrypto [OP_1] [0xb1]
        (SCRIPT_VERIFY_DISCOURAGE_UPGRADABLE_NOPS ||| SCRIPT_VERIFY_CHECKLOCKTIMEVERIFY)
        acceptingChecker = .ok () ∧
      VerifyScript identityCrypto [OP_1] [0xb1] SCRIPT_VERIFY_DISCOURAGE_UPGRADABLE_NOPS
        acceptingChecker = .error .SCRIPT_ERR_DISCOURAGE_UPGRADABLE_NOPS := by
  decide

end FairCoin.Ports.ScriptFlags
