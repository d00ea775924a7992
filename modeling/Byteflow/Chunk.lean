import Byteflow.Cap

namespace Byteflow

inductive Opcode where
  | halt | loadConst | move | loadImm | add | sub | mul | div | mod | neg | eq | lt | le | jump
  | branch | call | ret | callNative | spawn | yield | sleep | exit | selfPid | send
  | receive | receiveTimeout | receiveMatch | receiveMatchImm | ask | monitor | demonitor | link
  | unlink | askTimeout | delegate | freshRequestId | receiveMatchCorr | receiveMatchCorrImm
  | setTrapExit | registerName | whereis | receiveMatchKind | setRestartPolicy | hostAwait
  | receiveMatchTimeout | receiveMatchImmTimeout | isAlive | exitSignal | dictPut | dictGet
  | dictErase | receiveMatchEq | startChild | receiveMatchValue | sendRemote | startSupervisor
  | addImm | callNativeFrom | subImm | ltImm | listPack | listGet | listLen | mulImm | eqImm
  | leImm | bitAnd | bitOr | bitXor | bitNot | shl | shr | receiveMatchCmp | mapPack | mapGet
  | mapLen | tableOpen | tableGet | tablePut | recordPack | recordGet | recordLen | ne | gt | ge
  | neImm | gtImm | geImm | ushr | branchTrue | strLen | bytesLen | tailCall | trap | nop
deriving DecidableEq, Repr

structure Instruction where
  op : Opcode
  a : UInt8
  b : UInt8
  c : UInt8
  imm : Int32
deriving DecidableEq, Repr

structure FunctionDef where
  name : String
  entry : UInt32
  arity : UInt8
  numRegisters : UInt8
deriving DecidableEq, Repr

structure Chunk where
  name : String
  constants : List Value
  code : List Instruction
  functions : List FunctionDef

def Chunk.function (chunk : Chunk) (index : UInt32) : Option FunctionDef := chunk.functions[index.toNat]?

def Chunk.constant (chunk : Chunk) (index : UInt32) : Option Value := chunk.constants[index.toNat]?

inductive IntCmp where
  | eq | lt | le
deriving DecidableEq, Repr

namespace IntCmp

def fromImm (imm : Int32) : Option IntCmp :=
  if imm = 0 then some .eq else if imm = 1 then some .lt else if imm = 2 then some .le else none

def holds (cmp : IntCmp) (payload bound : Int64) : Bool :=
  match cmp with
  | .eq => payload == bound
  | .lt => payload < bound
  | .le => payload ≤ bound

end IntCmp

inductive RestartPolicy where
  | always | onFailure | never
deriving DecidableEq, Repr

def RestartPolicy.fromU8 (byte : UInt8) : Option RestartPolicy :=
  if byte = 0 then some .always else if byte = 1 then some .onFailure
  else if byte = 2 then some .never else none

-- Rust's checked conversions from an i32 immediate.
def u8TryFrom (imm : Int32) : Option UInt8 :=
  if 0 ≤ imm.toInt ∧ imm.toInt < 2 ^ 8 then some (UInt8.ofNat imm.toInt.toNat) else none

def u16TryFrom (imm : Int32) : Option UInt16 :=
  if 0 ≤ imm.toInt ∧ imm.toInt < 2 ^ 16 then some (UInt16.ofNat imm.toInt.toNat) else none

def u32TryFrom (imm : Int32) : Option UInt32 :=
  if 0 ≤ imm.toInt then some (UInt32.ofNat imm.toInt.toNat) else none

end Byteflow
