import FairCoin.Verified.ByteCodec
import FairCoin.Ports.Primitives

/-!
# Scripts: opcodes, pushes and script numbers

A `CScript` is a byte string read one op at a time by `GetOp`: an opcode,
and for the push opcodes (`0x00` to `OP_PUSHDATA4`) the bytes pushed, whose
length is the opcode itself or a little-endian prefix of one, two or four
bytes. `CScript() << b` writes a push, `FindAndDelete` erases the pushes of a
signature from the script it signs, and `IsPushOnly` and
`IsPayToScriptHash` classify scripts.

Numbers on the script stack are `CScriptNum`s: little-endian magnitudes
whose last byte carries the sign, read from at most four bytes (five for
`OP_CHECKLOCKTIMEVERIFY`), in the shortest encoding when that is required.
`CastToBool` reads an element as a truth value.

The loops of the code over a script's ops (`FindAndDelete`, `IsPushOnly`)
are bounded by a fuel argument, the script's length, which each op read
shortens (`GetOp_length`).
-/

namespace FairCoin.Ports.Script

open FairCoin.Verified.ByteCodec FairCoin.Ports.Primitives

/-- A stack element. -/
abbrev valtype := List UInt8

/-- `ScriptError`. -/
inductive ScriptError where
  | SCRIPT_ERR_UNKNOWN_ERROR
  | SCRIPT_ERR_EVAL_FALSE
  | SCRIPT_ERR_OP_RETURN
  | SCRIPT_ERR_SCRIPT_SIZE
  | SCRIPT_ERR_PUSH_SIZE
  | SCRIPT_ERR_OP_COUNT
  | SCRIPT_ERR_STACK_SIZE
  | SCRIPT_ERR_SIG_COUNT
  | SCRIPT_ERR_PUBKEY_COUNT
  | SCRIPT_ERR_VERIFY
  | SCRIPT_ERR_EQUALVERIFY
  | SCRIPT_ERR_CHECKMULTISIGVERIFY
  | SCRIPT_ERR_CHECKSIGVERIFY
  | SCRIPT_ERR_NUMEQUALVERIFY
  | SCRIPT_ERR_BAD_OPCODE
  | SCRIPT_ERR_DISABLED_OPCODE
  | SCRIPT_ERR_INVALID_STACK_OPERATION
  | SCRIPT_ERR_INVALID_ALTSTACK_OPERATION
  | SCRIPT_ERR_UNBALANCED_CONDITIONAL
  | SCRIPT_ERR_NEGATIVE_LOCKTIME
  | SCRIPT_ERR_UNSATISFIED_LOCKTIME
  | SCRIPT_ERR_SIG_HASHTYPE
  | SCRIPT_ERR_SIG_DER
  | SCRIPT_ERR_MINIMALDATA
  | SCRIPT_ERR_SIG_PUSHONLY
  | SCRIPT_ERR_SIG_HIGH_S
  | SCRIPT_ERR_SIG_NULLDUMMY
  | SCRIPT_ERR_PUBKEYTYPE
  | SCRIPT_ERR_CLEANSTACK
  | SCRIPT_ERR_DISCOURAGE_UPGRADABLE_NOPS
  deriving DecidableEq, Repr

/-! ## Limits and opcodes -/

def MAX_SCRIPT_ELEMENT_SIZE : Nat := 520

def MAX_OPS_PER_SCRIPT : Nat := 201

def MAX_PUBKEYS_PER_MULTISIG : Nat := 20

def OP_0 : UInt8 := 0x00
def OP_PUSHDATA1 : UInt8 := 0x4c
def OP_PUSHDATA2 : UInt8 := 0x4d
def OP_PUSHDATA4 : UInt8 := 0x4e
def OP_1NEGATE : UInt8 := 0x4f
def OP_1 : UInt8 := 0x51
def OP_16 : UInt8 := 0x60
def OP_IF : UInt8 := 0x63
def OP_ENDIF : UInt8 := 0x68
def OP_EQUAL : UInt8 := 0x87
def OP_HASH160 : UInt8 := 0xa9

/-! ## Reading ops -/

/-- The size of the data a push opcode pushes and the script after the size
prefix: the opcode itself below `OP_PUSHDATA1`, else a little-endian prefix
of one, two or four bytes; `none` when the prefix runs past the end. -/
def pushSize (opcode : UInt8) (rest : CScript) : Option (Nat × CScript) :=
  if opcode < OP_PUSHDATA1 then some (opcode.toNat, rest)
  else if opcode = OP_PUSHDATA1 then
    if rest.length < 1 then none else some (leValue (rest.take 1), rest.drop 1)
  else if opcode = OP_PUSHDATA2 then
    if rest.length < 2 then none else some (leValue (rest.take 2), rest.drop 2)
  else if rest.length < 4 then none else some (leValue (rest.take 4), rest.drop 4)

/-- `CScript::GetOp` at the start of `script`: the opcode, the data it pushes
(empty for other opcodes) and the rest of the script; `none` at the end or
when a push runs past it. -/
def GetOp (script : CScript) : Option (UInt8 × valtype × CScript) :=
  match script with
  | [] => none
  | opcode :: rest =>
    if opcode ≤ OP_PUSHDATA4 then
      match pushSize opcode rest with
      | none => none
      | some (nSize, data) =>
        if data.length < nSize then none else some (opcode, data.take nSize, data.drop nSize)
    else some (opcode, [], rest)

theorem pushSize_length {opcode : UInt8} {rest data : CScript} {nSize : Nat}
    (h : pushSize opcode rest = some (nSize, data)) : data.length ≤ rest.length := by
  unfold pushSize at h
  split_ifs at h <;> cases h <;> simp

/-- Every op read shortens the script. -/
theorem GetOp_length {script : CScript} {opcode : UInt8} {push rest : CScript}
    (h : GetOp script = some (opcode, push, rest)) : rest.length < script.length := by
  cases script with
  | nil => cases h
  | cons b tail =>
    simp only [GetOp] at h
    split_ifs at h with hPush
    · cases hSize : pushSize b tail with
      | none => simp [hSize] at h
      | some sized =>
        obtain ⟨nSize, data⟩ := sized
        have hLe := pushSize_length hSize
        simp only [hSize] at h
        split_ifs at h
        cases h
        simp only [List.length_drop, List.length_cons]
        omega
    · cases h
      simp

/-- `CScript() << b`: the push of `b` under the shortest size prefix. -/
def pushData (b : valtype) : CScript :=
  if b.length < OP_PUSHDATA1.toNat then b.length.toUInt8 :: b
  else if b.length ≤ 0xff then OP_PUSHDATA1 :: b.length.toUInt8 :: b
  else if b.length ≤ 0xffff then OP_PUSHDATA2 :: (leBytes 2 b.length ++ b)
  else OP_PUSHDATA4 :: (leBytes 4 b.length ++ b)

/-- The inner loop of `FindAndDelete`: every copy of `b` at the start of the
script is erased. -/
def stripCopies (b : CScript) : Nat → CScript → CScript
  | 0, script => script
  | fuel + 1, script =>
    if b.isPrefixOf script then stripCopies b fuel (script.drop b.length) else script

/-- The outer loop of `FindAndDelete`: copies of `b` erased at an op
boundary, then one op read; the scan stops where no op can be read. -/
def findAndDeleteFrom (b : CScript) : Nat → CScript → CScript
  | 0, script => script
  | fuel + 1, script =>
    let stripped := stripCopies b script.length script
    match GetOp stripped with
    | none => stripped
    | some (_, _, rest) =>
      stripped.take (stripped.length - rest.length) ++ findAndDeleteFrom b fuel rest

/-- `CScript::FindAndDelete(b)`: the script with every copy of `b` that
starts at an op boundary erased. -/
def FindAndDelete (script b : CScript) : CScript :=
  if b.isEmpty then script else findAndDeleteFrom b (script.length + 1) script

/-- The loop of `CScript::IsPushOnly`. -/
def isPushOnlyFrom : Nat → CScript → Bool
  | 0, _ => false
  | fuel + 1, script =>
    match script with
    | [] => true
    | _ =>
      match GetOp script with
      | none => false
      | some (opcode, _, rest) => opcode ≤ OP_16 && isPushOnlyFrom fuel rest

/-- `CScript::IsPushOnly`: every op is a push or pushes a small number
(`OP_RESERVED` included). -/
def IsPushOnly (script : CScript) : Bool := isPushOnlyFrom (script.length + 1) script

/-- `CScript::IsPayToScriptHash`: `OP_HASH160`, a push of 20 bytes,
`OP_EQUAL`. -/
def IsPayToScriptHash (script : CScript) : Bool :=
  script.length == 23 && script[0]? == some OP_HASH160 && script[1]? == some 0x14 &&
    script[22]? == some OP_EQUAL

/-! ## Script numbers -/

/-- `CScriptNum::set_vch`: the little-endian magnitude, negative when the top
bit of the last byte is set (that bit not counted). -/
def set_vch (vch : valtype) : Int :=
  match vch.getLast? with
  | none => 0
  | some last =>
    if last &&& 0x80 != 0 then -((leValue vch : Int) - 0x80 * 256 ^ (vch.length - 1))
    else leValue vch

/-- The shortest-encoding rule of `CScriptNum`: the last byte carries more
than the sign, or the byte before it needs the sign bit to itself. -/
def isMinimal (vch : valtype) : Bool :=
  match vch.reverse with
  | [] => true
  | last :: rest =>
    last &&& 0x7f != 0 ||
      match rest with
      | previous :: _ => previous &&& 0x80 != 0
      | [] => false

/-- `CScriptNum(vch, fRequireMinimal, nMaxNumSize)`; `none` where it throws
`scriptnum_error`: too many bytes, or not the shortest encoding when that is
required. -/
def CScriptNum (vch : valtype) (fRequireMinimal : Bool) (nMaxNumSize : Nat) : Option Int :=
  if vch.length > nMaxNumSize then none
  else if fRequireMinimal && !isMinimal vch then none
  else some (set_vch vch)

/-- The bytes of a magnitude, least significant first, with no zero byte at
the end. -/
def magnitudeBytes : Nat → Nat → List UInt8
  | 0, _ => []
  | fuel + 1, n => if n = 0 then [] else (n % 256).toUInt8 :: magnitudeBytes fuel (n / 256)

/-- `CScriptNum::serialize`: the magnitude's bytes, and the sign in the top
bit of the last one, with one more byte when that bit is taken. -/
def serialize (value : Int) : valtype :=
  let result := magnitudeBytes value.natAbs value.natAbs
  match result.getLast? with
  | none => []
  | some last =>
    if last &&& 0x80 != 0 then result ++ [if value < 0 then 0x80 else 0]
    else if value < 0 then result.dropLast ++ [last ||| 0x80]
    else result

/-- `CScriptNum::getint`: the value clamped to `int`. -/
def getint (value : Int) : Int := max (-2 ^ 31) (min value (2 ^ 31 - 1))

/-- `CastToBool`: some byte is not zero, other than a last byte `0x80`
(negative zero). -/
def CastToBool : valtype → Bool
  | [] => false
  | [b] => b != 0 && b != 0x80
  | b :: rest => b != 0 || CastToBool rest

/-- A number decoded under the shortest-encoding rule decodes to the same
number where the rule is not required: requiring it only adds a way to
throw. -/
theorem CScriptNum_of_minimal {vch : valtype} {fStrict fLax : Bool} {nMaxNumSize : Nat}
    {value : Int} (h : CScriptNum vch fStrict nMaxNumSize = some value)
    (hImp : fLax = true → fStrict = true) : CScriptNum vch fLax nMaxNumSize = some value := by
  unfold CScriptNum at h ⊢
  split_ifs at h with hSize hMinimal
  cases h
  rw [if_neg hSize, if_neg]
  intro hLax
  cases fLax
  · cases hLax
  · rw [hImp rfl] at hMinimal
    exact hMinimal hLax

end FairCoin.Ports.Script
