import FairCoin.Verified.OkImplies
import FairCoin.Ports.Script

/-!
# The script interpreter: `EvalScript` and `VerifyScript`

`EvalScript` runs a script on a stack. It reads one op at a time with
`GetOp`, keeps the `OP_IF` nesting in `vfExec` (innermost flag first),
counts the ops above `OP_16`, and after each op bounds the size of the two
stacks. Its switch is `opCase`, which sorts the opcodes into the cases of the
switch, and `execOp`, the body of each case. The cases that read no flag are
the `PlainOp`s, run by `execPlain`; the others read `flags` through
`fRequireMinimal`, the signature and key encoding checks, the upgradable
NOPs, `OP_CHECKLOCKTIMEVERIFY` or `NULLDUMMY`, and each has a definition of
its own.

`VerifyScript` runs `scriptSig`, then `scriptPubKey` on the stack it leaves.
Under `P2SH` a `scriptPubKey` of the pay-to-script-hash form then runs the
script serialized on top of `scriptSig`'s stack on the rest of that stack;
`CLEANSTACK` asks for one element left at the end.

The hash functions and `CPubKey::CheckLowS` are the fields of `ScriptCrypto`;
the spending transaction is seen only through the two callbacks of
`BaseSignatureChecker`. A C++ exception (from `CScriptNum`, all caught by
`EvalScript`) is `SCRIPT_ERR_UNKNOWN_ERROR`, and so is a failed `assert` of
`VerifyScript`.

## Main results

* `evalScript_okImplies` — under flags `F ⊆ G`, where `G` does not
  discourage upgradable NOPs, a successful evaluation under `G` is one under
  `F` with the same stack.
* `verifyScript_monotone` — the same for `VerifyScript`, when `F` has
  `CLEANSTACK` only together with `P2SH`.
-/

namespace FairCoin.Ports.Interpreter

open FairCoin.Verified FairCoin.Verified.Checks FairCoin.Ports.Primitives FairCoin.Ports.Script
open FairCoin.Ports.Script.ScriptError

/-! ## Flags and encodings -/

def SCRIPT_VERIFY_P2SH : UInt32 := (1 : UInt32) <<< 0
def SCRIPT_VERIFY_STRICTENC : UInt32 := (1 : UInt32) <<< 1
def SCRIPT_VERIFY_DERSIG : UInt32 := (1 : UInt32) <<< 2
def SCRIPT_VERIFY_LOW_S : UInt32 := (1 : UInt32) <<< 3
def SCRIPT_VERIFY_NULLDUMMY : UInt32 := (1 : UInt32) <<< 4
def SCRIPT_VERIFY_SIGPUSHONLY : UInt32 := (1 : UInt32) <<< 5
def SCRIPT_VERIFY_MINIMALDATA : UInt32 := (1 : UInt32) <<< 6
def SCRIPT_VERIFY_DISCOURAGE_UPGRADABLE_NOPS : UInt32 := (1 : UInt32) <<< 7
def SCRIPT_VERIFY_CLEANSTACK : UInt32 := (1 : UInt32) <<< 8
def SCRIPT_VERIFY_CHECKLOCKTIMEVERIFY : UInt32 := (1 : UInt32) <<< 9

/-- `(flags & mask) != 0`. -/
def hasFlag (flags mask : UInt32) : Bool := flags &&& mask != 0

/-- `fRequireMinimal`, read from the flags at the start of `EvalScript`. -/
def fRequireMinimal (flags : UInt32) : Bool := hasFlag flags SCRIPT_VERIFY_MINIMALDATA

def SIGHASH_ALL : UInt8 := 1
def SIGHASH_SINGLE : UInt8 := 3
def SIGHASH_ANYONECANPAY : UInt8 := 0x80

/-- The hash functions of the hash opcodes, and `CPubKey::CheckLowS`. -/
structure ScriptCrypto where
  RIPEMD160 : valtype → valtype
  SHA1 : valtype → valtype
  SHA256 : valtype → valtype
  Hash160 : valtype → valtype
  Hash256 : valtype → valtype
  CheckLowS : valtype → Bool

/-- `BaseSignatureChecker`: what the interpreter asks of the spending
transaction. -/
structure BaseSignatureChecker where
  CheckSig : valtype → valtype → CScript → Bool
  CheckLockTime : Int → Bool

def IsCompressedOrUncompressedPubKey (vchPubKey : valtype) : Bool :=
  if vchPubKey.length < 33 then false
  else if vchPubKey.headD 0 = 0x04 then vchPubKey.length == 65
  else if vchPubKey.headD 0 = 0x02 ∨ vchPubKey.headD 0 = 0x03 then vchPubKey.length == 33
  else false

/-- `IsValidSignatureEncoding`: the DER layout
`30 len 02 lenR R 02 lenS S hashtype` with `R` and `S` positive and not
padded. The reads past the checked size read zero, and come only after the
checks that keep them in range. -/
def IsValidSignatureEncoding (sig : valtype) : Bool :=
  let lenR := (sig.getD 3 0).toNat
  let lenS := (sig.getD (5 + lenR) 0).toNat
  if sig.length < 9 then false
  else if sig.length > 73 then false
  else if sig.getD 0 0 != 0x30 then false
  else if (sig.getD 1 0).toNat != sig.length - 3 then false
  else if 5 + lenR ≥ sig.length then false
  else if lenR + lenS + 7 != sig.length then false
  else if sig.getD 2 0 != 0x02 then false
  else if lenR == 0 then false
  else if sig.getD 4 0 &&& 0x80 != 0 then false
  else if lenR > 1 && sig.getD 4 0 == 0x00 && sig.getD 5 0 &&& 0x80 == 0 then false
  else if sig.getD (lenR + 4) 0 != 0x02 then false
  else if lenS == 0 then false
  else if sig.getD (lenR + 6) 0 &&& 0x80 != 0 then false
  else if lenS > 1 && sig.getD (lenR + 6) 0 == 0x00 && sig.getD (lenR + 7) 0 &&& 0x80 == 0 then
    false
  else true

def IsLowDERSignature (crypto : ScriptCrypto) (vchSig : valtype) : Except ScriptError Unit := do
  failIf (!IsValidSignatureEncoding vchSig) SCRIPT_ERR_SIG_DER
  failIf (!crypto.CheckLowS vchSig.dropLast) SCRIPT_ERR_SIG_HIGH_S

def IsDefinedHashtypeSignature (vchSig : valtype) : Bool :=
  match vchSig.getLast? with
  | none => false
  | some last =>
    let nHashType := last &&& ~~~SIGHASH_ANYONECANPAY
    SIGHASH_ALL ≤ nHashType && nHashType ≤ SIGHASH_SINGLE

/-- `CheckSignatureEncoding`: an empty signature passes; otherwise each of
`DERSIG`, `LOW_S` and `STRICTENC` asks for the DER layout, `LOW_S` for a low
`S`, and `STRICTENC` for a defined hash type. -/
def CheckSignatureEncoding (crypto : ScriptCrypto) (vchSig : valtype) (flags : UInt32) :
    Except ScriptError Unit :=
  if vchSig.isEmpty then pure ()
  else do
    failIf (hasFlag flags (SCRIPT_VERIFY_DERSIG ||| SCRIPT_VERIFY_LOW_S ||| SCRIPT_VERIFY_STRICTENC) &&
      !IsValidSignatureEncoding vchSig) SCRIPT_ERR_SIG_DER
    onlyIf (hasFlag flags SCRIPT_VERIFY_LOW_S) (IsLowDERSignature crypto vchSig)
    failIf (hasFlag flags SCRIPT_VERIFY_STRICTENC && !IsDefinedHashtypeSignature vchSig)
      SCRIPT_ERR_SIG_HASHTYPE

def CheckPubKeyEncoding (vchPubKey : valtype) (flags : UInt32) : Except ScriptError Unit :=
  failIf (hasFlag flags SCRIPT_VERIFY_STRICTENC && !IsCompressedOrUncompressedPubKey vchPubKey)
    SCRIPT_ERR_PUBKEYTYPE

/-- `CheckMinimalPush`: the data is pushed by the shortest op that pushes
it. -/
def CheckMinimalPush (data : valtype) (opcode : UInt8) : Bool :=
  if data.length = 0 then opcode == OP_0
  else if data.length = 1 ∧ 1 ≤ data.headD 0 ∧ data.headD 0 ≤ 16 then
    opcode == OP_1 + (data.headD 0 - 1)
  else if data.length = 1 ∧ data.headD 0 = 0x81 then opcode == OP_1NEGATE
  else if data.length ≤ 75 then opcode.toNat == data.length
  else if data.length ≤ 255 then opcode == OP_PUSHDATA1
  else if data.length ≤ 65535 then opcode == OP_PUSHDATA2
  else true

/-- A `CScriptNum` read inside `EvalScript`, whose `catch` turns the
`scriptnum_error` into `SCRIPT_ERR_UNKNOWN_ERROR`. -/
def scriptNum (vch : valtype) (fRequireMinimal : Bool) (nMaxNumSize : Nat) :
    Except ScriptError Int :=
  orFail (CScriptNum vch fRequireMinimal nMaxNumSize) SCRIPT_ERR_UNKNOWN_ERROR

/-! ## The cases of the switch -/

/-- The state `EvalScript` keeps across ops: both stacks (top first), the
`OP_IF` nesting (innermost first), the code signed from the last
`OP_CODESEPARATOR` (the script from there to its end), and the op count. -/
structure EvalState where
  stack : List valtype
  altstack : List valtype
  vfExec : List Bool
  pbegincodehash : CScript
  nOpCount : Nat

inductive HashOp where
  | OP_RIPEMD160 | OP_SHA1 | OP_SHA256 | OP_HASH160 | OP_HASH256

inductive UnaryOp where
  | OP_1ADD | OP_1SUB | OP_NEGATE | OP_ABS | OP_NOT | OP_0NOTEQUAL

inductive BinaryOp where
  | OP_ADD | OP_SUB | OP_BOOLAND | OP_BOOLOR | OP_NUMEQUAL | OP_NUMEQUALVERIFY | OP_NUMNOTEQUAL
  | OP_LESSTHAN | OP_GREATERTHAN | OP_LESSTHANOREQUAL | OP_GREATERTHANOREQUAL | OP_MIN | OP_MAX
  deriving DecidableEq

/-- The cases of the switch that read no flag. -/
inductive PlainOp where
  /-- `OP_1NEGATE` and `OP_1` to `OP_16`. -/
  | pushNumber (n : Int)
  | OP_NOP
  /-- `OP_IF`, and `OP_NOTIF` when `fNot`. -/
  | OP_IF (fNot : Bool)
  | OP_ELSE | OP_ENDIF | OP_VERIFY | OP_RETURN
  | OP_TOALTSTACK | OP_FROMALTSTACK
  | OP_2DROP | OP_2DUP | OP_3DUP | OP_2OVER | OP_2ROT | OP_2SWAP
  | OP_IFDUP | OP_DEPTH | OP_DROP | OP_DUP | OP_NIP | OP_OVER | OP_ROT | OP_SWAP | OP_TUCK
  | OP_SIZE
  /-- `OP_EQUAL`, and `OP_EQUALVERIFY` when `fVerify`. -/
  | OP_EQUAL (fVerify : Bool)
  | hash (op : HashOp)
  | OP_CODESEPARATOR
  /-- The `default` of the switch. -/
  | bad

/-- The cases of `EvalScript`'s switch. -/
inductive OpCase where
  | plain (op : PlainOp)
  | OP_CHECKLOCKTIMEVERIFY
  /-- `OP_NOP1` and `OP_NOP3` to `OP_NOP10`. -/
  | upgradableNop
  /-- `OP_PICK`, and `OP_ROLL` when `fRoll`. -/
  | OP_PICK (fRoll : Bool)
  | unary (op : UnaryOp)
  | binary (op : BinaryOp)
  | OP_WITHIN
  /-- `OP_CHECKSIG`, and `OP_CHECKSIGVERIFY` when `fVerify`. -/
  | OP_CHECKSIG (fVerify : Bool)
  /-- `OP_CHECKMULTISIG`, and `OP_CHECKMULTISIGVERIFY` when `fVerify`. -/
  | OP_CHECKMULTISIG (fVerify : Bool)

/-- The case of the switch an opcode selects. -/
def opCase (opcode : UInt8) : OpCase :=
  match opcode.toNat with
  | 0x4f => .plain (.pushNumber (-1))
  | 0x61 => .plain .OP_NOP
  | 0x63 => .plain (.OP_IF false)
  | 0x64 => .plain (.OP_IF true)
  | 0x67 => .plain .OP_ELSE
  | 0x68 => .plain .OP_ENDIF
  | 0x69 => .plain .OP_VERIFY
  | 0x6a => .plain .OP_RETURN
  | 0x6b => .plain .OP_TOALTSTACK
  | 0x6c => .plain .OP_FROMALTSTACK
  | 0x6d => .plain .OP_2DROP
  | 0x6e => .plain .OP_2DUP
  | 0x6f => .plain .OP_3DUP
  | 0x70 => .plain .OP_2OVER
  | 0x71 => .plain .OP_2ROT
  | 0x72 => .plain .OP_2SWAP
  | 0x73 => .plain .OP_IFDUP
  | 0x74 => .plain .OP_DEPTH
  | 0x75 => .plain .OP_DROP
  | 0x76 => .plain .OP_DUP
  | 0x77 => .plain .OP_NIP
  | 0x78 => .plain .OP_OVER
  | 0x79 => .OP_PICK false
  | 0x7a => .OP_PICK true
  | 0x7b => .plain .OP_ROT
  | 0x7c => .plain .OP_SWAP
  | 0x7d => .plain .OP_TUCK
  | 0x82 => .plain .OP_SIZE
  | 0x87 => .plain (.OP_EQUAL false)
  | 0x88 => .plain (.OP_EQUAL true)
  | 0x8b => .unary .OP_1ADD
  | 0x8c => .unary .OP_1SUB
  | 0x8f => .unary .OP_NEGATE
  | 0x90 => .unary .OP_ABS
  | 0x91 => .unary .OP_NOT
  | 0x92 => .unary .OP_0NOTEQUAL
  | 0x93 => .binary .OP_ADD
  | 0x94 => .binary .OP_SUB
  | 0x9a => .binary .OP_BOOLAND
  | 0x9b => .binary .OP_BOOLOR
  | 0x9c => .binary .OP_NUMEQUAL
  | 0x9d => .binary .OP_NUMEQUALVERIFY
  | 0x9e => .binary .OP_NUMNOTEQUAL
  | 0x9f => .binary .OP_LESSTHAN
  | 0xa0 => .binary .OP_GREATERTHAN
  | 0xa1 => .binary .OP_LESSTHANOREQUAL
  | 0xa2 => .binary .OP_GREATERTHANOREQUAL
  | 0xa3 => .binary .OP_MIN
  | 0xa4 => .binary .OP_MAX
  | 0xa5 => .OP_WITHIN
  | 0xa6 => .plain (.hash .OP_RIPEMD160)
  | 0xa7 => .plain (.hash .OP_SHA1)
  | 0xa8 => .plain (.hash .OP_SHA256)
  | 0xa9 => .plain (.hash .OP_HASH160)
  | 0xaa => .plain (.hash .OP_HASH256)
  | 0xab => .plain .OP_CODESEPARATOR
  | 0xac => .OP_CHECKSIG false
  | 0xad => .OP_CHECKSIG true
  | 0xae => .OP_CHECKMULTISIG false
  | 0xaf => .OP_CHECKMULTISIG true
  | 0xb0 => .upgradableNop
  | 0xb1 => .OP_CHECKLOCKTIMEVERIFY
  | 0xb2 | 0xb3 | 0xb4 | 0xb5 | 0xb6 | 0xb7 | 0xb8 | 0xb9 => .upgradableNop
  | n => if 0x51 ≤ n ∧ n ≤ 0x60 then .plain (.pushNumber (n - 0x50)) else .plain .bad

def vchFalse : valtype := []

def vchTrue : valtype := [1]

/-- `fValue ? vchTrue : vchFalse`. -/
def boolVch (fValue : Bool) : valtype := if fValue then vchTrue else vchFalse

def hashOf (crypto : ScriptCrypto) : HashOp → valtype → valtype
  | .OP_RIPEMD160 => crypto.RIPEMD160
  | .OP_SHA1 => crypto.SHA1
  | .OP_SHA256 => crypto.SHA256
  | .OP_HASH160 => crypto.Hash160
  | .OP_HASH256 => crypto.Hash256

/-- A stack op: `f` rearranges the stack, `none` when it holds too few
elements. -/
def shuffle (s : EvalState) (f : List valtype → Option (List valtype)) :
    Except ScriptError EvalState :=
  match f s.stack with
  | some stack => pure { s with stack }
  | none => throw SCRIPT_ERR_INVALID_STACK_OPERATION

/-- The end of the ops with a `…VERIFY` form: the result is pushed, and under
the `VERIFY` form popped again when true, else the op fails with `e`. -/
def pushResult (s : EvalState) (stack : List valtype) (fSuccess fVerify : Bool)
    (e : ScriptError) : Except ScriptError EvalState :=
  if fVerify then
    if fSuccess then pure { s with stack } else throw e
  else pure { s with stack := boolVch fSuccess :: stack }

/-- The body of a case of the switch that reads no flag; `fExec` says whether
the current branch runs, `rest` is the script after the op. Stack pictures
are written top first: `(x1 x2 -- x2)` takes `x2 :: x1 :: stack` to
`x2 :: stack`. -/
def execPlain (crypto : ScriptCrypto) (fExec : Bool) (rest : CScript) (s : EvalState) :
    PlainOp → Except ScriptError EvalState
  | .pushNumber n => pure { s with stack := serialize n :: s.stack }
  | .OP_NOP => pure s
  | .OP_IF fNot =>
    if fExec then
      match s.stack with
      | vch :: stack => pure { s with stack, vfExec := (CastToBool vch != fNot) :: s.vfExec }
      | [] => throw SCRIPT_ERR_UNBALANCED_CONDITIONAL
    else pure { s with vfExec := false :: s.vfExec }
  | .OP_ELSE =>
    match s.vfExec with
    | fValue :: vfExec => pure { s with vfExec := (!fValue) :: vfExec }
    | [] => throw SCRIPT_ERR_UNBALANCED_CONDITIONAL
  | .OP_ENDIF =>
    match s.vfExec with
    | _ :: vfExec => pure { s with vfExec }
    | [] => throw SCRIPT_ERR_UNBALANCED_CONDITIONAL
  | .OP_VERIFY =>
    match s.stack with
    | vch :: stack => if CastToBool vch then pure { s with stack } else throw SCRIPT_ERR_VERIFY
    | [] => throw SCRIPT_ERR_INVALID_STACK_OPERATION
  | .OP_RETURN => throw SCRIPT_ERR_OP_RETURN
  | .OP_TOALTSTACK =>
    match s.stack with
    | vch :: stack => pure { s with stack, altstack := vch :: s.altstack }
    | [] => throw SCRIPT_ERR_INVALID_STACK_OPERATION
  | .OP_FROMALTSTACK =>
    match s.altstack with
    | vch :: altstack => pure { s with stack := vch :: s.stack, altstack }
    | [] => throw SCRIPT_ERR_INVALID_ALTSTACK_OPERATION
  | .OP_2DROP => shuffle s fun
    | _ :: _ :: stack => some stack
    | _ => none
  | .OP_2DUP => shuffle s fun
    | x2 :: x1 :: stack => some (x2 :: x1 :: x2 :: x1 :: stack)
    | _ => none
  | .OP_3DUP => shuffle s fun
    | x3 :: x2 :: x1 :: stack => some (x3 :: x2 :: x1 :: x3 :: x2 :: x1 :: stack)
    | _ => none
  | .OP_2OVER => shuffle s fun
    | x4 :: x3 :: x2 :: x1 :: stack => some (x2 :: x1 :: x4 :: x3 :: x2 :: x1 :: stack)
    | _ => none
  | .OP_2ROT => shuffle s fun
    | x6 :: x5 :: x4 :: x3 :: x2 :: x1 :: stack => some (x2 :: x1 :: x6 :: x5 :: x4 :: x3 :: stack)
    | _ => none
  | .OP_2SWAP => shuffle s fun
    | x4 :: x3 :: x2 :: x1 :: stack => some (x2 :: x1 :: x4 :: x3 :: stack)
    | _ => none
  | .OP_IFDUP => shuffle s fun
    | vch :: stack => some (if CastToBool vch then vch :: vch :: stack else vch :: stack)
    | [] => none
  | .OP_DEPTH => pure { s with stack := serialize s.stack.length :: s.stack }
  | .OP_DROP => shuffle s fun
    | _ :: stack => some stack
    | [] => none
  | .OP_DUP => shuffle s fun
    | vch :: stack => some (vch :: vch :: stack)
    | [] => none
  | .OP_NIP => shuffle s fun
    | x2 :: _ :: stack => some (x2 :: stack)
    | _ => none
  | .OP_OVER => shuffle s fun
    | x2 :: x1 :: stack => some (x1 :: x2 :: x1 :: stack)
    | _ => none
  | .OP_ROT => shuffle s fun
    | x3 :: x2 :: x1 :: stack => some (x1 :: x3 :: x2 :: stack)
    | _ => none
  | .OP_SWAP => shuffle s fun
    | x2 :: x1 :: stack => some (x1 :: x2 :: stack)
    | _ => none
  | .OP_TUCK => shuffle s fun
    | x2 :: x1 :: stack => some (x2 :: x1 :: x2 :: stack)
    | _ => none
  | .OP_SIZE => shuffle s fun
    | vch :: stack => some (serialize vch.length :: vch :: stack)
    | [] => none
  | .OP_EQUAL fVerify =>
    match s.stack with
    | x2 :: x1 :: stack => pushResult s stack (x1 == x2) fVerify SCRIPT_ERR_EQUALVERIFY
    | _ => throw SCRIPT_ERR_INVALID_STACK_OPERATION
  | .hash op => shuffle s fun
    | vch :: stack => some (hashOf crypto op vch :: stack)
    | [] => none
  | .OP_CODESEPARATOR => pure { s with pbegincodehash := rest }
  | .bad => throw SCRIPT_ERR_BAD_OPCODE

/-- An upgradable NOP: nothing, unless upgradable NOPs are discouraged. -/
def opUpgradableNop (flags : UInt32) (s : EvalState) : Except ScriptError EvalState := do
  failIf (hasFlag flags SCRIPT_VERIFY_DISCOURAGE_UPGRADABLE_NOPS)
    SCRIPT_ERR_DISCOURAGE_UPGRADABLE_NOPS
  pure s

/-- The check `OP_CHECKLOCKTIMEVERIFY` makes when its flag is on: the top
element, read from up to five bytes, against the transaction's lock time. The
stack is left as it is. -/
def checkLockTime (fRequireMinimal : Bool) (checker : BaseSignatureChecker) (s : EvalState) :
    Except ScriptError EvalState :=
  match s.stack with
  | top :: _ => do
    let nLockTime ← scriptNum top fRequireMinimal 5
    failIf (nLockTime < 0) SCRIPT_ERR_NEGATIVE_LOCKTIME
    failIf (!checker.CheckLockTime nLockTime) SCRIPT_ERR_UNSATISFIED_LOCKTIME
    pure s
  | [] => throw SCRIPT_ERR_INVALID_STACK_OPERATION

/-- `OP_CHECKLOCKTIMEVERIFY`: an upgradable NOP while its flag is off. -/
def opCheckLockTimeVerify (flags : UInt32) (checker : BaseSignatureChecker) (s : EvalState) :
    Except ScriptError EvalState :=
  if !hasFlag flags SCRIPT_VERIFY_CHECKLOCKTIMEVERIFY then opUpgradableNop flags s
  else checkLockTime (fRequireMinimal flags) checker s

/-- `OP_PICK` and `OP_ROLL`: the element `n` deep, below the top element `n`,
copied (or moved) to the top. -/
def opPick (fRequireMinimal fRoll : Bool) (s : EvalState) : Except ScriptError EvalState :=
  match s.stack with
  | top :: stack@(_ :: _) => do
    let n := getint (← scriptNum top fRequireMinimal 4)
    failIf (n < 0 || n ≥ (stack.length : Int)) SCRIPT_ERR_INVALID_STACK_OPERATION
    let vch := stack.getD n.toNat []
    let stack := if fRoll then stack.eraseIdx n.toNat else stack
    pure { s with stack := vch :: stack }
  | _ => throw SCRIPT_ERR_INVALID_STACK_OPERATION

def unaryNum : UnaryOp → Int → Int
  | .OP_1ADD, bn => bn + 1
  | .OP_1SUB, bn => bn - 1
  | .OP_NEGATE, bn => -bn
  | .OP_ABS, bn => if bn < 0 then -bn else bn
  | .OP_NOT, bn => if bn = 0 then 1 else 0
  | .OP_0NOTEQUAL, bn => if bn ≠ 0 then 1 else 0

def opUnary (fRequireMinimal : Bool) (op : UnaryOp) (s : EvalState) :
    Except ScriptError EvalState :=
  match s.stack with
  | vch :: stack => do
    let bn ← scriptNum vch fRequireMinimal 4
    pure { s with stack := serialize (unaryNum op bn) :: stack }
  | [] => throw SCRIPT_ERR_INVALID_STACK_OPERATION

def binaryNum : BinaryOp → Int → Int → Int
  | .OP_ADD, bn1, bn2 => bn1 + bn2
  | .OP_SUB, bn1, bn2 => bn1 - bn2
  | .OP_BOOLAND, bn1, bn2 => if bn1 ≠ 0 ∧ bn2 ≠ 0 then 1 else 0
  | .OP_BOOLOR, bn1, bn2 => if bn1 ≠ 0 ∨ bn2 ≠ 0 then 1 else 0
  | .OP_NUMEQUAL, bn1, bn2 => if bn1 = bn2 then 1 else 0
  | .OP_NUMEQUALVERIFY, bn1, bn2 => if bn1 = bn2 then 1 else 0
  | .OP_NUMNOTEQUAL, bn1, bn2 => if bn1 ≠ bn2 then 1 else 0
  | .OP_LESSTHAN, bn1, bn2 => if bn1 < bn2 then 1 else 0
  | .OP_GREATERTHAN, bn1, bn2 => if bn1 > bn2 then 1 else 0
  | .OP_LESSTHANOREQUAL, bn1, bn2 => if bn1 ≤ bn2 then 1 else 0
  | .OP_GREATERTHANOREQUAL, bn1, bn2 => if bn1 ≥ bn2 then 1 else 0
  | .OP_MIN, bn1, bn2 => if bn1 < bn2 then bn1 else bn2
  | .OP_MAX, bn1, bn2 => if bn1 > bn2 then bn1 else bn2

/-- The binary numeric ops, `(x1 x2 -- out)`; `OP_NUMEQUALVERIFY` pops its
result again when true. -/
def opBinary (fRequireMinimal : Bool) (op : BinaryOp) (s : EvalState) :
    Except ScriptError EvalState :=
  match s.stack with
  | x2 :: x1 :: stack => do
    let bn1 ← scriptNum x1 fRequireMinimal 4
    let bn2 ← scriptNum x2 fRequireMinimal 4
    let result := serialize (binaryNum op bn1 bn2)
    if op = .OP_NUMEQUALVERIFY then
      if CastToBool result then pure { s with stack } else throw SCRIPT_ERR_NUMEQUALVERIFY
    else pure { s with stack := result :: stack }
  | _ => throw SCRIPT_ERR_INVALID_STACK_OPERATION

/-- `OP_WITHIN`, `(x min max -- out)`. -/
def opWithin (fRequireMinimal : Bool) (s : EvalState) : Except ScriptError EvalState :=
  match s.stack with
  | x3 :: x2 :: x1 :: stack => do
    let bn1 ← scriptNum x1 fRequireMinimal 4
    let bn2 ← scriptNum x2 fRequireMinimal 4
    let bn3 ← scriptNum x3 fRequireMinimal 4
    pure { s with stack := boolVch (bn2 ≤ bn1 && bn1 < bn3) :: stack }
  | _ => throw SCRIPT_ERR_INVALID_STACK_OPERATION

/-- `OP_CHECKSIG`, `(sig pubkey -- bool)`: the signature is checked against
the code from the last `OP_CODESEPARATOR` with its own pushes erased. -/
def opCheckSig (crypto : ScriptCrypto) (flags : UInt32) (checker : BaseSignatureChecker)
    (fVerify : Bool) (s : EvalState) : Except ScriptError EvalState :=
  match s.stack with
  | vchPubKey :: vchSig :: stack => do
    let scriptCode := FindAndDelete s.pbegincodehash (pushData vchSig)
    CheckSignatureEncoding crypto vchSig flags
    CheckPubKeyEncoding vchPubKey flags
    let fSuccess := checker.CheckSig vchSig vchPubKey scriptCode
    pushResult s stack fSuccess fVerify SCRIPT_ERR_CHECKSIGVERIFY
  | _ => throw SCRIPT_ERR_INVALID_STACK_OPERATION

/-- The signature loop of `OP_CHECKMULTISIG`: each signature is tried against
the keys in order, a key that fails it is skipped, and the loop gives up as
soon as fewer keys than signatures are left. -/
def multiSigLoop (crypto : ScriptCrypto) (flags : UInt32) (checker : BaseSignatureChecker)
    (scriptCode : CScript) : List valtype → List valtype → Except ScriptError Bool
  | [], _ => pure true
  -- not reached: the loop keeps at least as many keys as signatures
  | _ :: _, [] => pure false
  | vchSig :: sigs, vchPubKey :: keys => do
    CheckSignatureEncoding crypto vchSig flags
    CheckPubKeyEncoding vchPubKey flags
    let sigs := if checker.CheckSig vchSig vchPubKey scriptCode then sigs else vchSig :: sigs
    if sigs.length > keys.length then pure false
    else multiSigLoop crypto flags checker scriptCode sigs keys

/-- `OP_CHECKMULTISIG`,
`([sig ...] num_of_signatures [pubkey ...] num_of_pubkeys -- bool)`, with the
extra element it pops below the signatures, empty under `NULLDUMMY`. The
index `i` counts the elements used from the top, as in the code. -/
def opCheckMultiSig (crypto : ScriptCrypto) (flags : UInt32) (checker : BaseSignatureChecker)
    (fVerify : Bool) (s : EvalState) : Except ScriptError EvalState := do
  let top ← orFail s.stack.head? SCRIPT_ERR_INVALID_STACK_OPERATION
  let nKeysCount := getint (← scriptNum top (fRequireMinimal flags) 4)
  failIf (nKeysCount < 0 || nKeysCount > (MAX_PUBKEYS_PER_MULTISIG : Int))
    SCRIPT_ERR_PUBKEY_COUNT
  let nOpCount := s.nOpCount + nKeysCount.toNat
  failIf (nOpCount > MAX_OPS_PER_SCRIPT) SCRIPT_ERR_OP_COUNT
  let i := 2 + nKeysCount.toNat
  failIf (s.stack.length < i) SCRIPT_ERR_INVALID_STACK_OPERATION
  let nSigsCount := getint (← scriptNum (s.stack.getD (i - 1) []) (fRequireMinimal flags) 4)
  failIf (nSigsCount < 0 || nSigsCount > nKeysCount) SCRIPT_ERR_SIG_COUNT
  let i := i + 1 + nSigsCount.toNat
  failIf (s.stack.length < i) SCRIPT_ERR_INVALID_STACK_OPERATION
  let keys := (s.stack.drop 1).take nKeysCount.toNat
  let sigs := (s.stack.drop (2 + nKeysCount.toNat)).take nSigsCount.toNat
  let scriptCode := sigs.foldl (fun code vchSig => FindAndDelete code (pushData vchSig))
    s.pbegincodehash
  let fSuccess ← multiSigLoop crypto flags checker scriptCode sigs keys
  match s.stack.drop (i - 1) with
  | dummy :: stack => do
    failIf (hasFlag flags SCRIPT_VERIFY_NULLDUMMY && !dummy.isEmpty) SCRIPT_ERR_SIG_NULLDUMMY
    pushResult { s with nOpCount } stack fSuccess fVerify SCRIPT_ERR_CHECKMULTISIGVERIFY
  | [] => throw SCRIPT_ERR_INVALID_STACK_OPERATION

/-- The body of the case of the switch an op selects. -/
def execOp (crypto : ScriptCrypto) (flags : UInt32) (checker : BaseSignatureChecker)
    (fExec : Bool) (rest : CScript) (s : EvalState) : OpCase → Except ScriptError EvalState
  | .plain op => execPlain crypto fExec rest s op
  | .OP_CHECKLOCKTIMEVERIFY => opCheckLockTimeVerify flags checker s
  | .upgradableNop => opUpgradableNop flags s
  | .OP_PICK fRoll => opPick (fRequireMinimal flags) fRoll s
  | .unary op => opUnary (fRequireMinimal flags) op s
  | .binary op => opBinary (fRequireMinimal flags) op s
  | .OP_WITHIN => opWithin (fRequireMinimal flags) s
  | .OP_CHECKSIG fVerify => opCheckSig crypto flags checker fVerify s
  | .OP_CHECKMULTISIG fVerify => opCheckMultiSig crypto flags checker fVerify s

/-! ## `EvalScript` and `VerifyScript` -/

/-- `OP_CAT`, `OP_SUBSTR`, `OP_LEFT`, `OP_RIGHT`, `OP_INVERT`, `OP_AND`,
`OP_OR`, `OP_XOR`, `OP_2MUL`, `OP_2DIV`, `OP_MUL`, `OP_DIV`, `OP_MOD`,
`OP_LSHIFT`, `OP_RSHIFT`: disabled, executed or not. -/
def isDisabled (opcode : UInt8) : Bool :=
  [0x7e, 0x7f, 0x80, 0x81, 0x83, 0x84, 0x85, 0x86, 0x8d, 0x8e, 0x95, 0x96, 0x97, 0x98, 0x99].contains
    opcode

/-- What an op read does: a push in a running branch (in its shortest form
under `MINIMALDATA`), the switch in a running branch or for the `OP_IF`
family, and nothing otherwise. -/
def runOp (crypto : ScriptCrypto) (flags : UInt32) (checker : BaseSignatureChecker)
    (fExec : Bool) (opcode : UInt8) (vchPushValue rest : CScript) (s : EvalState) :
    Except ScriptError EvalState :=
  if fExec && opcode ≤ OP_PUSHDATA4 then do
    failIf (fRequireMinimal flags && !CheckMinimalPush vchPushValue opcode)
      SCRIPT_ERR_MINIMALDATA
    pure { s with stack := vchPushValue :: s.stack }
  else if fExec || (OP_IF ≤ opcode && opcode ≤ OP_ENDIF) then
    execOp crypto flags checker fExec rest s (opCase opcode)
  else pure s

/-- One iteration of `EvalScript`'s loop, for the op read with its push and
the script after it. -/
def step (crypto : ScriptCrypto) (flags : UInt32) (checker : BaseSignatureChecker)
    (opcode : UInt8) (vchPushValue rest : CScript) (s : EvalState) :
    Except ScriptError EvalState := do
  let fExec := !s.vfExec.contains false
  failIf (vchPushValue.length > MAX_SCRIPT_ELEMENT_SIZE) SCRIPT_ERR_PUSH_SIZE
  let nOpCount := if opcode > OP_16 then s.nOpCount + 1 else s.nOpCount
  failIf (opcode > OP_16 && nOpCount > MAX_OPS_PER_SCRIPT) SCRIPT_ERR_OP_COUNT
  failIf (isDisabled opcode) SCRIPT_ERR_DISABLED_OPCODE
  let s ← runOp crypto flags checker fExec opcode vchPushValue rest { s with nOpCount }
  failIf (s.stack.length + s.altstack.length > 1000) SCRIPT_ERR_STACK_SIZE
  pure s

/-- The loop of `EvalScript` from the op at `pc`. Every op read shortens the
script (`GetOp_length`), so fuel beyond the script's length is never used
up. -/
def evalLoop (crypto : ScriptCrypto) (flags : UInt32) (checker : BaseSignatureChecker) :
    Nat → CScript → EvalState → Except ScriptError EvalState
  | 0, _, _ => throw SCRIPT_ERR_UNKNOWN_ERROR
  | _ + 1, [], s => pure s
  | fuel + 1, pc@(_ :: _), s =>
    match GetOp pc with
    | some (opcode, vchPushValue, rest) => do
      let s ← step crypto flags checker opcode vchPushValue rest s
      evalLoop crypto flags checker fuel rest s
    | none => throw SCRIPT_ERR_BAD_OPCODE

/-- `EvalScript`: the stack left by the script, run from `stack`. -/
def EvalScript (crypto : ScriptCrypto) (stack : List valtype) (script : CScript)
    (flags : UInt32) (checker : BaseSignatureChecker) : Except ScriptError (List valtype) := do
  failIf (script.length > 10000) SCRIPT_ERR_SCRIPT_SIZE
  let s ← evalLoop crypto flags checker (script.length + 1) script ⟨stack, [], [], script, 0⟩
  failIf (!s.vfExec.isEmpty) SCRIPT_ERR_UNBALANCED_CONDITIONAL
  pure s.stack

/-- The test `VerifyScript` makes after an evaluation: a stack whose top
element is true. -/
def requireTrue (stack : List valtype) : Except ScriptError Unit :=
  match stack with
  | top :: _ => failIf (!CastToBool top) SCRIPT_ERR_EVAL_FALSE
  | [] => throw SCRIPT_ERR_EVAL_FALSE

/-- The pay-to-script-hash evaluation: the script serialized on top of the
stack `scriptSig` left runs on the rest of that stack. -/
def evalP2SH (crypto : ScriptCrypto) (scriptSig : CScript) (stackCopy : List valtype)
    (flags : UInt32) (checker : BaseSignatureChecker) : Except ScriptError (List valtype) := do
  failIf (!IsPushOnly scriptSig) SCRIPT_ERR_SIG_PUSHONLY
  match stackCopy with
  | pubKeySerialized :: stack => do
    let stack ← EvalScript crypto stack pubKeySerialized flags checker
    requireTrue stack
    pure stack
  -- the `assert(!stack.empty())`
  | [] => throw SCRIPT_ERR_UNKNOWN_ERROR

/-- The `CLEANSTACK` test, with the `assert` that `P2SH` is on. -/
def checkCleanStack (flags : UInt32) (stack : List valtype) : Except ScriptError Unit :=
  onlyIf (hasFlag flags SCRIPT_VERIFY_CLEANSTACK) do
    failIf (!hasFlag flags SCRIPT_VERIFY_P2SH) SCRIPT_ERR_UNKNOWN_ERROR
    failIf (stack.length != 1) SCRIPT_ERR_CLEANSTACK

/-- `VerifyScript`. The stack `scriptSig` leaves is kept as `stackCopy` for
the pay-to-script-hash evaluation. -/
def VerifyScript (crypto : ScriptCrypto) (scriptSig scriptPubKey : CScript) (flags : UInt32)
    (checker : BaseSignatureChecker) : Except ScriptError Unit := do
  failIf (hasFlag flags SCRIPT_VERIFY_SIGPUSHONLY && !IsPushOnly scriptSig)
    SCRIPT_ERR_SIG_PUSHONLY
  let stackCopy ← EvalScript crypto [] scriptSig flags checker
  let stack ← EvalScript crypto stackCopy scriptPubKey flags checker
  requireTrue stack
  let stack ←
    (if hasFlag flags SCRIPT_VERIFY_P2SH && IsPayToScriptHash scriptPubKey then
      evalP2SH crypto scriptSig stackCopy flags checker
    else pure stack)
  checkCleanStack flags stack

/-- Hash functions that return their input and a signature checker that
accepts everything: enough to run scripts whose outcome does not hang on
cryptography. -/
def identityCrypto : ScriptCrypto := ⟨id, id, id, id, id, fun _ => true⟩

def acceptingChecker : BaseSignatureChecker := ⟨fun _ _ _ => true, fun _ => true⟩

/-- `OP_1 OP_IF OP_2 OP_ELSE OP_3 OP_ENDIF` takes the first branch, `OP_0`
in place of `OP_1` the second. -/
example : EvalScript identityCrypto [] [0x51, 0x63, 0x52, 0x67, 0x53, 0x68] 0 acceptingChecker =
    .ok [[2]] := by decide
example : EvalScript identityCrypto [] [0x00, 0x63, 0x52, 0x67, 0x53, 0x68] 0 acceptingChecker =
    .ok [[3]] := by decide

/-- `OP_0 OP_0 OP_1 OP_1 OP_1 OP_CHECKMULTISIG`: one signature for one key,
with the extra element below them. -/
example : EvalScript identityCrypto [] [0x00, 0x00, 0x51, 0x51, 0x51, 0xae] 0 acceptingChecker =
    .ok [[1]] := by decide

end FairCoin.Ports.Interpreter
