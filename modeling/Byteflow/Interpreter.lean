import Byteflow.Machine

namespace Byteflow.Vm

open Exec

-- add_imm, sub_imm, mul_imm and the four ordered comparisons differ only in
-- what they compute from an int and from a float.
def numericImm (onInt : Int64 → Int64 → Value) (onFloat : F64 → F64 → Value) (dst src : UInt8) (imm : Int32) :
    VmM Unit := do
  let operand := imm.toInt64
  match ← reading (getReg src) with
  | .int x => setReg dst (onInt x operand)
  | .float x => setReg dst (onFloat x (F64.ofInt64 operand))
  | other => throw (.typeMismatch "int or float" other.typeName)

def addImm (dst src : UInt8) (imm : Int32) : VmM Unit :=
  numericImm (fun x y => .int (x + y)) (fun x y => .float (x.add y)) dst src imm

def subImm (dst src : UInt8) (imm : Int32) : VmM Unit :=
  numericImm (fun x y => .int (x - y)) (fun x y => .float (x.sub y)) dst src imm

def mulImm (dst src : UInt8) (imm : Int32) : VmM Unit :=
  numericImm (fun x y => .int (x * y)) (fun x y => .float (x.mul y)) dst src imm

def ltImm (dst src : UInt8) (imm : Int32) : VmM Unit :=
  numericImm (fun x y => .bool (x < y)) (fun x y => .bool (x.lt y)) dst src imm

def leImm (dst src : UInt8) (imm : Int32) : VmM Unit :=
  numericImm (fun x y => .bool (x ≤ y)) (fun x y => .bool (x.le y)) dst src imm

def gtImm (dst src : UInt8) (imm : Int32) : VmM Unit :=
  numericImm (fun x y => .bool (y < x)) (fun x y => .bool (y.lt x)) dst src imm

def geImm (dst src : UInt8) (imm : Int32) : VmM Unit :=
  numericImm (fun x y => .bool (y ≤ x)) (fun x y => .bool (y.le x)) dst src imm

def equalsImm (value : Value) (imm : Int32) : Bool :=
  match value with
  | .int x => x == imm.toInt64
  | _ => false

def eqImm (dst src : UInt8) (imm : Int32) : VmM Unit := do
  let value ← reading (getReg src)
  setReg dst (.bool (equalsImm value imm))

def neImm (dst src : UInt8) (imm : Int32) : VmM Unit := do
  let value ← reading (getReg src)
  setReg dst (.bool (!equalsImm value imm))

def shiftAmount (y : Int64) : Nat := (y.toUInt64.toUInt32 &&& 63).toNat

def bitOp (op : Opcode) (x y : Int64) : Except Fault Int64 :=
  match op with
  | .bitAnd => .ok (x &&& y)
  | .bitOr => .ok (x ||| y)
  | .bitXor => .ok (x ^^^ y)
  | .shl => .ok (Int64.ofBitVec (x.toBitVec <<< shiftAmount y))
  | .shr => .ok (Int64.ofBitVec (x.toBitVec.sshiftRight (shiftAmount y)))
  | .ushr => .ok (Int64.ofBitVec (x.toBitVec >>> shiftAmount y))
  | _ => .error (.invariant "bit_binop called with a non-bitwise opcode")

def bitBinop (op : Opcode) (dst lhs rhs : UInt8) : VmM Unit := do
  let x ← reading (intFromReg lhs)
  let y ← reading (intFromReg rhs)
  let result ← reading fun _ => bitOp op x y
  setReg dst (.int result)

def bitNot (dst src : UInt8) : VmM Unit := do
  let x ← reading (intFromReg src)
  setReg dst (.int (~~~x))

-- list_pack and record_pack.
def packWith (maxLen : Nat) (expected : String) (build : List Value → Option Value) (dst base : UInt8) (count : Int32) :
    VmM Unit := do
  if ¬ (0 ≤ count.toInt ∧ count.toInt ≤ maxLen) then
    throw (.typeMismatch expected "imm-out-of-range")
  else
    let items ← reading fun vm =>
      (List.range count.toInt.toNat).mapM fun offset => do vm.getReg (← regAt base offset)
    match build items with
    | some packed => setReg dst packed
    | none => throw valueNestingExceedsLimit

def listPack (dst base : UInt8) (count : Int32) : VmM Unit :=
  packWith MAX_LIST_LEN "list length 0..=256" Value.tryList dst base count

def recordPack (dst base : UInt8) (count : Int32) : VmM Unit :=
  packWith MAX_RECORD_LEN "record length 0..=256" Value.tryRecord dst base count

-- list_get and record_get.
def getItem (expectedIndex expectedKind : String) (items : Value → Option (List Value)) (dst src : UInt8)
    (index : Int32) : VmM Unit := do
  if index.toInt < 0 then throw (.typeMismatch expectedIndex "negative-int")
  else
    let value ← reading (getReg src)
    match items value with
    | none => throw (.typeMismatch expectedKind value.typeName)
    | some found =>
      match found[index.toInt.toNat]? with
      | some item => setReg dst item
      | none => throw (.typeMismatch expectedIndex "out-of-range")

def listItems : Value → Option (List Value)
  | .list items => some items
  | _ => none

def recordFields : Value → Option (List Value)
  | .record fields => some fields
  | _ => none

def listGet (dst src : UInt8) (index : Int32) : VmM Unit := getItem "list index" "list" listItems dst src index

def recordGet (dst src : UInt8) (index : Int32) : VmM Unit := getItem "record index" "record" recordFields dst src index

-- list_len, record_len, map_len, str_len and bytes_len.
def lengthOf (expected : String) (len : Value → Option Nat) (dst src : UInt8) : VmM Unit := do
  let value ← reading (getReg src)
  match len value with
  | some n => setReg dst (.int (Int64.ofNat n))
  | none => throw (.typeMismatch expected value.typeName)

def listLen (dst src : UInt8) : VmM Unit := lengthOf "list" (fun v => (listItems v).map List.length) dst src

def recordLen (dst src : UInt8) : VmM Unit := lengthOf "record" (fun v => (recordFields v).map List.length) dst src

def mapLen (dst src : UInt8) : VmM Unit :=
  lengthOf "map" (fun v => match v with | .map entries => some entries.length | _ => none) dst src

def strLen (dst src : UInt8) : VmM Unit :=
  lengthOf "str" (fun v => match v with | .str text => some text.utf8ByteSize | _ => none) dst src

def bytesLen (dst src : UInt8) : VmM Unit :=
  lengthOf "bytes" (fun v => match v with | .bytes data => some data.length | _ => none) dst src

def mapKeyOf : Value → Except Fault MapKey
  | .int n => .ok (.int n)
  | .str text => .ok (.str text)
  | other => .error (.typeMismatch "map key (int or str)" other.typeName)

def mapPack (dst base : UInt8) (count : Int32) : VmM Unit := do
  if ¬ (0 ≤ count.toInt ∧ count.toInt ≤ MAX_MAP_LEN) then
    throw (.typeMismatch "map length 0..=256" "imm-out-of-range")
  else
    let entries ← reading fun vm =>
      (List.range count.toInt.toNat).mapM fun index => do
        let keyReg ← regAt base (2 * index)
        let valueReg ← regAt base (2 * index + 1)
        let key ← mapKeyOf (← vm.getReg keyReg)
        let value ← vm.getReg valueReg
        .ok (key, value)
    match Value.tryMap entries with
    | some packed => setReg dst packed
    | none => throw (.typeMismatch "map" "duplicate-key-or-nested")

def mapGet (dst src key : UInt8) : VmM Unit := do
  match ← reading (getReg src) with
  | .map entries =>
    let keyRef ← reading fun vm => do mapKeyOf (← vm.getReg key)
    setReg dst (((entries.find? (·.1 == keyRef)).map Prod.snd).getD .unit)
  | other => throw (.typeMismatch "map" other.typeName)

def numericOp (op : Opcode) (a b : Value) : Except Fault Value :=
  match op, a, b with
  | .add, .int x, .int y => .ok (.int (x + y))
  | .add, _, _ => do .ok (.float ((← asF64 a).add (← asF64 b)))
  | .sub, .int x, .int y => .ok (.int (x - y))
  | .sub, _, _ => do .ok (.float ((← asF64 a).sub (← asF64 b)))
  | .mul, .int x, .int y => .ok (.int (x * y))
  | .mul, _, _ => do .ok (.float ((← asF64 a).mul (← asF64 b)))
  | .div, .int x, .int y => if y = 0 then .error .divideByZero else .ok (.int (x / y))
  | .div, _, _ => do
    let denom ← asF64 b
    .ok (.float ((← asF64 a).div denom))
  | .mod, .int x, .int y => if y = 0 then .error .divideByZero else .ok (.int (x % y))
  | .mod, .int _, _ => .error (.typeMismatch "int" b.typeName)
  | .mod, _, _ => .error (.typeMismatch "int" a.typeName)
  | .eq, _, _ => .ok (.bool (a.eq b))
  | .ne, _, _ => .ok (.bool (!a.eq b))
  | .lt, .int x, .int y => .ok (.bool (x < y))
  | .lt, _, _ => do .ok (.bool ((← asF64 a).lt (← asF64 b)))
  | .le, .int x, .int y => .ok (.bool (x ≤ y))
  | .le, _, _ => do .ok (.bool ((← asF64 a).le (← asF64 b)))
  | .gt, .int x, .int y => .ok (.bool (y < x))
  | .gt, _, _ => do
    let lhs ← asF64 a
    .ok (.bool ((← asF64 b).lt lhs))
  | .ge, .int x, .int y => .ok (.bool (y ≤ x))
  | .ge, _, _ => do
    let lhs ← asF64 a
    .ok (.bool ((← asF64 b).le lhs))
  | _, _, _ => .error (.invariant "numeric_binop called with a non-arithmetic opcode")

def numericBinop (op : Opcode) (dst lhs rhs : UInt8) : VmM Unit := do
  let a ← reading (getReg lhs)
  let b ← reading (getReg rhs)
  let result ← reading fun _ => numericOp op a b
  setReg dst result

def negValue : Value → Except Fault Value
  | .int x => .ok (.int (-x))
  | .float x => .ok (.float x.neg)
  | other => .error (.typeMismatch "int or float" other.typeName)

def callee (function : UInt32) (argc : UInt8) (vm : Vm) : Except Fault FunctionDef :=
  match vm.chunk.function function with
  | none => .error (.badFunction function (UInt32.ofNat vm.chunk.functions.length))
  | some fn => if argc ≠ fn.arity then .error (.badArity argc.toNat fn.arity) else .ok fn

def pushFrame (frame : Frame) : VmM Unit := modify fun vm => { vm with frames := frame :: vm.frames }

def call (instr : Instruction) : VmM Unit := do
  let function := instr.imm.toUInt32
  let vm ← get
  if vm.frames.length ≥ MAX_CALL_DEPTH then throw (.callStackOverflow vm.frames.length)
  else
    let fn ← reading (callee function instr.b)
    let args ← reading (gatherRegs instr.a instr.b 0)
    let frame ← loadFrameArgsCharged
      { Frame.new function fn.numRegisters (some instr.a) with pc := fn.entry.toNat } args fn.arity
    pushFrame frame

def tailCall (instr : Instruction) : VmM Unit := do
  let function := instr.imm.toUInt32
  let fn ← reading (callee function instr.b)
  let args ← reading (gatherRegs instr.a instr.b 0)
  let finished ← reading current
  modify fun vm => { vm with frames := vm.frames.tail }
  release finished.heapCharge
  let frame ← loadFrameArgsCharged
    { Frame.new function fn.numRegisters finished.destReg with pc := fn.entry.toNat } args fn.arity
  pushFrame frame

def callNative (instr : Instruction) (argBase argc : UInt8) : VmM Unit := do
  let index := instr.imm.toUInt32
  let vm ← get
  match checkNativeGate vm.nativeGate vm.natives index with
  | .error (.indexOutOfRange idx) => throw (.badNative idx (UInt32.ofNat vm.natives.len))
  | .error other => throw (.nativeDenied other)
  | .ok () =>
    let args ← reading (gatherRegs argBase argc 0)
    match vm.natives.get index with
    | none => throw (.badNative index (UInt32.ofNat vm.natives.len))
    | some native =>
      let value ← reading fun _ => native vm.instructionsExecuted args
      setReg instr.a value

def dictPut (instr : Instruction) : VmM Unit := do
  let key ← reading (intFromReg instr.b)
  let value ← reading (getReg instr.c)
  let newBytes ← reading fun _ => dictOwnedBytes value
  let previous := ((← get).dictLookup key).getD .unit
  let oldBytes ← reading fun _ => dictOwnedBytes previous
  adjustDictQuota oldBytes newBytes
  onError (setReg instr.a previous) fun fault => do
    adjustDictQuota newBytes oldBytes
    throw fault
  modify (dictInsert key value)

def dictGet (instr : Instruction) : VmM Unit := do
  let key ← reading (intFromReg instr.b)
  setReg instr.a (((← get).dictLookup key).getD .unit)

def dictErase (instr : Instruction) : VmM Unit := do
  let key ← reading (intFromReg instr.b)
  let _ ← reading (getReg instr.a)
  match (← get).dictLookup key with
  | none => setReg instr.a .unit
  | some old =>
    modify (dictRemove key)
    let oldBytes ← reading fun _ => dictOwnedBytes old
    onError (adjustDictQuota oldBytes 0) fun fault => do
      modify (dictInsert key old)
      throw fault
    onError (setReg instr.a old) fun fault => do
      modify (dictInsert key old)
      adjustDictQuota 0 oldBytes
      throw fault

-- One arm of the opcode switch: none continues the loop, some result leaves
-- it. An error is the early return VmResult::Trap.
def execute (instr : Instruction) : VmM (Option VmResult) :=
  match instr.op with
  | .halt => do return some (.complete (← reading (getReg 0)))
  | .nop => pure none
  | .loadConst => do
    let idx := instr.imm.toUInt32
    let vm ← get
    match vm.chunk.constant idx with
    | none => throw (.badConstant idx (UInt32.ofNat vm.chunk.constants.length))
    | some konst => do
      setReg instr.a konst
      return none
  | .loadImm => do
    setReg instr.a (.int instr.imm.toInt64)
    return none
  | .addImm => do
    addImm instr.a instr.b instr.imm
    return none
  | .subImm => do
    subImm instr.a instr.b instr.imm
    return none
  | .ltImm => do
    ltImm instr.a instr.b instr.imm
    return none
  | .mulImm => do
    mulImm instr.a instr.b instr.imm
    return none
  | .eqImm => do
    eqImm instr.a instr.b instr.imm
    return none
  | .neImm => do
    neImm instr.a instr.b instr.imm
    return none
  | .leImm => do
    leImm instr.a instr.b instr.imm
    return none
  | .gtImm => do
    gtImm instr.a instr.b instr.imm
    return none
  | .geImm => do
    geImm instr.a instr.b instr.imm
    return none
  | .bitAnd | .bitOr | .bitXor | .shl | .shr | .ushr => do
    bitBinop instr.op instr.a instr.b instr.c
    return none
  | .bitNot => do
    bitNot instr.a instr.b
    return none
  | .listPack => do
    listPack instr.a instr.b instr.imm
    return none
  | .listGet => do
    listGet instr.a instr.b instr.imm
    return none
  | .listLen => do
    listLen instr.a instr.b
    return none
  | .recordPack => do
    recordPack instr.a instr.b instr.imm
    return none
  | .recordGet => do
    recordGet instr.a instr.b instr.imm
    return none
  | .recordLen => do
    recordLen instr.a instr.b
    return none
  | .strLen => do
    strLen instr.a instr.b
    return none
  | .bytesLen => do
    bytesLen instr.a instr.b
    return none
  | .mapPack => do
    mapPack instr.a instr.b instr.imm
    return none
  | .mapGet => do
    mapGet instr.a instr.b instr.c
    return none
  | .mapLen => do
    mapLen instr.a instr.b
    return none
  | .receiveMatchCmp => do
    let tag ← reading (tagFromReg instr.b)
    let bound ← reading (intFromReg instr.c)
    match IntCmp.fromImm instr.imm with
    | none => throw (.typeMismatch "cmp 0..=2" "imm-out-of-range")
    | some cmp =>
      return some (.receive { destReg := instr.a, matchTag := some tag, matchPayloadCmp := some (cmp, bound) })
  | .tableOpen => do return some (.tableOpen instr.a (← reading (expectStrReg instr.b)))
  | .tableGet => do
    let cap ← reading (expectCapReg instr.b)
    return some (.tableGet instr.a cap (← reading (getReg instr.c)))
  | .tablePut => do
    let cap ← reading (expectCapReg instr.a)
    let key ← reading (getReg instr.b)
    return some (.tablePut cap key (← reading (getReg instr.c)))
  | .move => do
    if instr.a ≠ instr.b then
      let value ← reading (getReg instr.b)
      setReg instr.a value
    return none
  | .add | .sub | .mul | .div | .mod | .eq | .ne | .lt | .le | .gt | .ge => do
    numericBinop instr.op instr.a instr.b instr.c
    return none
  | .neg => do
    let negated ← reading fun vm => do negValue (← vm.getReg instr.b)
    setReg instr.a negated
    return none
  | .jump => do
    applyRelativeJump instr.imm
    return none
  | .branch => do
    let value ← reading (getReg instr.a)
    if value.isTruthy = false then applyRelativeJump instr.imm
    return none
  | .branchTrue => do
    let value ← reading (getReg instr.a)
    if value.isTruthy = true then applyRelativeJump instr.imm
    return none
  | .call => do
    call instr
    return none
  | .tailCall => do
    tailCall instr
    return none
  | .callNative => do
    callNative instr instr.a instr.b
    return none
  | .callNativeFrom => do
    callNative instr instr.b 1
    return none
  | .ret => do
    let value ← reading (getReg instr.a)
    popFrame value
  | .spawn => do
    let args ← reading (gatherRegs instr.a instr.b 1)
    return some (.spawn instr.imm.toUInt32 args instr.a (CapRights.fromU8 instr.c))
  | .yield => return some .yield
  | .sleep => do return some (.sleep (← reading (durationMillisFromReg instr.a)))
  | .exit => do return some (.complete (← reading (getReg instr.a)))
  | .selfPid => return some (.selfPid instr.a)
  | .send => do
    let targetCap ← reading (expectCapReg instr.a)
    return some (.send targetCap (← reading (expectMessageValue instr.b)))
  | .receive => return some (.receive { destReg := instr.a })
  | .receiveTimeout => do
    let timeout ← reading (durationMillisFromReg instr.b)
    return some (.receive { destReg := instr.a, timeout := some timeout })
  | .receiveMatch => do
    let tag ← reading (tagFromReg instr.b)
    return some (.receive { destReg := instr.a, matchTag := some tag })
  | .receiveMatchImm => do
    let tag ← reading fun _ => tagFromImm instr.imm
    return some (.receive { destReg := instr.a, matchTag := some tag })
  | .receiveMatchTimeout => do
    let tag ← reading (tagFromReg instr.b)
    let timeout ← reading (durationMillisFromReg instr.c)
    return some (.receive { destReg := instr.a, timeout := some timeout, matchTag := some tag })
  | .receiveMatchImmTimeout => do
    let tag ← reading fun _ => tagFromImm instr.imm
    let timeout ← reading (durationMillisFromReg instr.b)
    return some (.receive { destReg := instr.a, timeout := some timeout, matchTag := some tag })
  | .isAlive => do return some (.isAlive instr.a (← reading (expectCapReg instr.b)))
  | .exitSignal => do
    let targetCap ← reading (expectCapReg instr.a)
    let reason ← reading (intFromReg instr.b)
    -- FlowExitReason::from_u64 knows the codes 0..=6.
    if 0 ≤ reason.toInt ∧ reason.toInt ≤ 6 then return some (.exitSignal targetCap reason.toUInt64)
    else throw (.typeMismatch "FlowExitReason 0..=6" "imm-out-of-range")
  | .dictPut => do
    dictPut instr
    return none
  | .dictGet => do
    dictGet instr
    return none
  | .dictErase => do
    dictErase instr
    return none
  | .receiveMatchEq => do
    let tag ← reading (tagFromReg instr.b)
    let payload ← reading (intFromReg instr.c)
    return some (.receive { destReg := instr.a, matchTag := some tag, matchPayloadEq := some payload })
  | .receiveMatchValue => do
    let tag ← reading (tagFromReg instr.b)
    let payload ← reading (getReg instr.c)
    return some (.receive { destReg := instr.a, matchTag := some tag, matchPayloadValue := some payload })
  | .sendRemote => do
    let node ← reading (intFromReg instr.a)
    if node.toInt < 0 then throw (.typeMismatch "node id >= 0" "negative")
    else
      match ← reading (getReg instr.b) with
      | .str name => do
        let message ← reading (expectMessageValue instr.c)
        return some (.sendRemote node.toUInt64 name message)
      | _ => throw (.typeMismatch "str" "not-str")
  | .startSupervisor =>
    match u8TryFrom instr.imm with
    | none => throw (.typeMismatch "strategy 0..=2" "imm-out-of-range")
    | some strategy =>
      if strategy > 2 then throw (.typeMismatch "strategy 0..=2" "imm-out-of-range")
      else return some (.startSupervisor strategy)
  | .startChild => do
    let function := (u32TryFrom instr.imm).getD 0xFFFFFFFF
    let vm ← get
    if (vm.chunk.function function).isNone then
      throw (.badFunction function (UInt32.ofNat vm.chunk.functions.length))
    else if (RestartPolicy.fromU8 instr.b).isNone then
      throw (.typeMismatch "restart policy 0..=2" "imm-out-of-range")
    else return some (.startChild instr.a function instr.b)
  | .receiveMatchKind =>
    match u8TryFrom instr.imm with
    | some kind =>
      if kind ≤ 10 then return some (.receive { destReg := instr.a, matchPayloadKind := some kind })
      else throw (.typeMismatch "payload kind 0..=10" "imm-out-of-range")
    | none => throw (.typeMismatch "payload kind 0..=10" "imm-out-of-range")
  | .freshRequestId => do
    let id ← freshRequestId
    setReg instr.a (Value.ofUInt64 id)
    return none
  | .receiveMatchCorr => do
    let tag ← reading (tagFromReg instr.b)
    let rid ← reading (requestIdFromReg instr.c)
    return some (.receive { destReg := instr.a, matchTag := some tag, matchRequestId := some rid })
  | .receiveMatchCorrImm => do
    let tag ← reading fun _ => tagFromImm instr.imm
    let rid ← reading (requestIdFromReg instr.b)
    return some (.receive { destReg := instr.a, matchTag := some tag, matchRequestId := some rid })
  | .ask => do
    let targetCap ← reading (expectCapReg instr.b)
    let request ← reading (expectMessageValue instr.c)
    return some (.ask instr.a targetCap request none)
  | .askTimeout =>
    match u8TryFrom instr.imm with
    | none => throw (.typeMismatch "millis register" "imm-out-of-range")
    | some millisReg => do
      let timeout ← reading (durationMillisFromReg millisReg)
      let targetCap ← reading (expectCapReg instr.b)
      let request ← reading (expectMessageValue instr.c)
      return some (.ask instr.a targetCap request (some timeout))
  | .monitor => do return some (.monitor instr.a (← reading (expectCapReg instr.b)))
  | .demonitor => return some (.demonitor instr.a)
  | .link => do return some (.link instr.a (← reading (expectCapReg instr.b)))
  | .unlink => return some (.unlink instr.a)
  | .setTrapExit => do return some (.setTrapExit (← reading (getReg instr.a)).isTruthy)
  | .setRestartPolicy =>
    if 0 ≤ instr.imm.toInt ∧ instr.imm.toInt ≤ 2 then
      return some (.setRestartPolicy (UInt8.ofNat instr.imm.toInt.toNat))
    else throw (.typeMismatch "restart policy 0..=2" "imm-out-of-range")
  | .hostAwait => do
    let args ← reading (getReg instr.b)
    if instr.imm.toInt < 0 then throw (.typeMismatch "HostAwait op >= 0" "imm-negative")
    else return some (.hostAwait instr.a instr.imm.toUInt32 args)
  | .registerName => do return some (.registerName (← reading (expectStrReg instr.a)))
  | .whereis => do return some (.whereis instr.a (← reading (expectStrReg instr.b)))
  | .delegate => do
    let srcCap ← reading (expectCapReg instr.b)
    if instr.c = 255 then return some (.delegate instr.a srcCap (CapRights.fromBits instr.imm.toUInt32) none)
    else
      let nativeCap ← reading (expectCapReg instr.c)
      return some (.delegate instr.a srcCap (CapRights.fromBits instr.imm.toUInt32) (some nativeCap))
  | .trap => throw (.explicit instr.imm)

-- One turn of the loop in run.
def step : VmM (Option VmResult) := do
  modify fun vm => { vm with instructionsExecuted := vm.instructionsExecuted + 1 }
  match ← fetch with
  | some instr => execute instr
  -- Fell off the end of the function: implicit return Unit.
  | none => popFrame .unit

def advanced (vm : Vm) (frame : Frame) (below : List Frame) : Vm :=
  { vm with
    instructionsExecuted := vm.instructionsExecuted + 1
    frames := { frame with pc := frame.pc + 1 } :: below }

theorem exec_step_some {vm : Vm} {frame : Frame} {below : List Frame} {instr : Instruction}
    (frames : vm.frames = frame :: below) (found : vm.chunk.code[frame.pc]? = some instr) :
    exec step vm = exec (execute instr) (vm.advanced frame below) := by
  simp only [step, fetch, exec_bind, exec_modify, exec_reading, exec_get, exec_pure, current, frames,
    found, setTop, List.tail_cons, advanced]

theorem exec_step_none {vm : Vm} {frame : Frame} {below : List Frame} (frames : vm.frames = frame :: below)
    (missing : vm.chunk.code[frame.pc]? = none) :
    exec step vm = exec (popFrame .unit) { vm with instructionsExecuted := vm.instructionsExecuted + 1 } := by
  simp only [step, fetch, exec_bind, exec_modify, exec_reading, exec_get, exec_pure, current, frames,
    missing]

def run : Nat → Vm → Except Fault VmResult × Vm
  | 0, vm => (.ok .yield, vm)
  | budget + 1, vm =>
    match exec step vm with
    | (.error fault, vm) => (.error fault, vm)
    | (.ok (some result), vm) => (.ok result, vm)
    | (.ok none, vm) => run budget vm

def resumeWith (destReg : UInt8) (value : Value) : VmM Unit := setReg destReg value

end Byteflow.Vm
