import Byteflow.Chunk

namespace Byteflow

-- The errors of Cranelift itself (Backend, Module) are left out: a trace that
-- Cranelift refuses is never run.
inductive CompileError where
  | emptyTrace (function pc : UInt32)
  | unsupportedOpcode (opcode : Opcode) (pc : UInt32)
deriving DecidableEq, Repr

structure TraceKey where
  function : UInt32
  entryPc : UInt32
  floats : Bool
deriving DecidableEq, Repr

structure TraceBlock where
  startPc : UInt32
  pcs : List UInt32
deriving DecidableEq, Repr

def MAX_TRACE_LENGTH : Nat := 256
def MAX_LEAF_INSNS : Nat := 32

-- as u32 of an i64 sum.
def jumpTarget (pc : UInt32) (imm : Int32) : UInt32 := pc + 1 + imm.toUInt32

def saturatingSucc (pc : UInt32) : UInt32 := if pc = 0xFFFFFFFF then pc else pc + 1

def isEffectOpcode : Opcode → Bool
  | .callNative | .callNativeFrom | .spawn | .yield | .sleep | .exit | .selfPid | .send | .receive | .receiveTimeout
  | .receiveMatch | .receiveMatchImm | .receiveMatchTimeout | .receiveMatchImmTimeout | .isAlive | .exitSignal | .dictPut
  | .dictGet | .dictErase | .receiveMatchEq | .receiveMatchValue | .sendRemote | .startSupervisor | .startChild | .ask
  | .askTimeout | .monitor | .demonitor | .link | .unlink | .setTrapExit | .setRestartPolicy | .hostAwait | .delegate
  | .freshRequestId | .receiveMatchCorr | .receiveMatchCorrImm | .receiveMatchKind | .registerName | .whereis | .listPack
  | .listGet | .listLen | .mapPack | .mapGet | .mapLen | .receiveMatchCmp | .tableOpen | .tableGet | .tablePut
  | .recordPack | .recordGet | .recordLen | .trap | .halt => true
  | _ => false

def slotConstant (floats : Bool) : Option Value → Bool
  | some (.int _) | some (.bool _) => !floats
  | some (.float _) => floats
  | _ => false

-- The instructions at which a block of the region stops before it takes them.
def stopsBlock (chunk : Chunk) (floats : Bool) (instr : Instruction) : Bool :=
  isEffectOpcode instr.op ||
    (instr.op == .loadConst && !slotConstant floats (chunk.constant instr.imm.toUInt32)) ||
    (floats && match instr.op with
      | .loadImm | .call | .mod | .eqImm | .bitAnd | .bitOr | .bitXor | .bitNot | .shl | .shr => true
      | _ => false)

-- The inner loop of collect_trace_region: the pcs of one block and the starts
-- it queues. room is what is left of MAX_TRACE_LENGTH.
def collectBlock (chunk : Chunk) (floats : Bool) : Nat → UInt32 → List UInt32 × List UInt32
  | 0, _ => ([], [])
  | room + 1, pc =>
    match chunk.code[pc.toNat]? with
    | none => ([], [])
    | some instr =>
      if stopsBlock chunk floats instr then ([], [])
      else if room = 0 then ([pc], [])
      else match instr.op with
        | .ret => ([pc], [])
        | .jump => ([pc], [jumpTarget pc instr.imm])
        | .branch => ([pc], [pc + 1, jumpTarget pc instr.imm])
        | .call => ([pc], ((chunk.function instr.imm.toUInt32).map (·.entry)).toList ++ [pc + 1])
        | _ =>
          let (pcs, starts) := collectBlock chunk floats room (pc + 1)
          (pc :: pcs, starts)

-- The outer loop: queue, starts seen, and the length so far. A start that is
-- taken from the queue costs one unit of fuel.
def collectFrom (chunk : Chunk) (floats : Bool) : Nat → List UInt32 → List UInt32 → Nat → Option (List TraceBlock)
  | _, [], _, _ => some []
  | 0, _ :: _, _, _ => none
  | fuel + 1, start :: queue, seen, total =>
    if start ∈ seen then collectFrom chunk floats fuel queue seen total
    else if total ≥ MAX_TRACE_LENGTH then some []
    else
      let (pcs, starts) := collectBlock chunk floats (MAX_TRACE_LENGTH - total) start
      let rest := collectFrom chunk floats fuel (queue ++ starts) (start :: seen) (total + pcs.length)
      if pcs.isEmpty then rest else rest.map (⟨start, pcs⟩ :: ·)

-- A block queues at most two starts and takes at least one instruction.
def collectTraceRegion (chunk : Chunk) (key : TraceKey) : Option (List TraceBlock) :=
  collectFrom chunk key.floats (3 * MAX_TRACE_LENGTH + 1) [key.entryPc] [] 0

def nextFunctionEntry (chunk : Chunk) (entry : UInt32) : UInt32 :=
  chunk.functions.foldl (fun stop fn => if fn.entry > entry ∧ fn.entry < stop then fn.entry else stop) 0xFFFFFFFF

def isLeafInstruction (chunk : Chunk) (instr : Instruction) : Bool :=
  match instr.op with
  | .loadImm | .move | .addImm | .subImm | .mulImm | .eqImm | .ltImm | .leImm | .add | .sub | .mul | .div | .mod | .neg
  | .eq | .lt | .le | .bitAnd | .bitOr | .bitXor | .bitNot | .shl | .shr | .nop => true
  | .loadConst => slotConstant false (chunk.constant instr.imm.toUInt32)
  | _ => false

def leafPcs (chunk : Chunk) (stop : UInt32) : Nat → UInt32 → Option (List UInt32)
  | 0, _ => none
  | room + 1, pc =>
    if pc ≥ stop then none
    else match chunk.code[pc.toNat]? with
      | none => none
      | some instr =>
        if instr.op = .ret then some [pc]
        else if isLeafInstruction chunk instr then (leafPcs chunk stop room (pc + 1)).map (pc :: ·)
        else none

structure LeafBody where
  numRegisters : UInt8
  arity : UInt8
  pcs : List UInt32

def leafBody (chunk : Chunk) (function : UInt32) : Option LeafBody :=
  match chunk.function function with
  | none => none
  | some fn =>
    (leafPcs chunk (nextFunctionEntry chunk fn.entry) MAX_LEAF_INSNS fn.entry).map fun pcs =>
      ⟨fn.numRegisters, fn.arity, pcs⟩

def emitCheck (chunk : Chunk) (floats : Bool) (pc : UInt32) (instr : Instruction) : Except CompileError Unit :=
  let unsupported : Except CompileError Unit := .error (.unsupportedOpcode instr.op pc)
  match instr.op with
  | .loadImm | .addImm | .subImm | .ltImm | .mulImm | .leImm | .move | .add | .sub | .mul | .eq | .lt | .le | .div | .neg
  | .jump | .branch | .ret | .nop | .call => .ok ()
  | .eqImm | .bitAnd | .bitOr | .bitXor | .shl | .shr | .bitNot | .mod => if floats then unsupported else .ok ()
  | .loadConst =>
    match chunk.constant instr.imm.toUInt32 with
    | some (.int _) | some (.bool _) => .ok ()
    | some (.float _) => if floats then .ok () else unsupported
    | _ => unsupported
  | _ => unsupported

-- What compile_trace fixes before it emits code: the blocks, the size of the
-- register map, and the pcs whose cost the Call before them has paid.
structure CompiledTrace where
  chunk : Chunk
  key : TraceKey
  region : List TraceBlock
  regSlots : Nat
  supportsCalls : Bool
  skipBudget : List UInt32

namespace CompiledTrace

def instructions (chunk : Chunk) (region : List TraceBlock) : List (UInt32 × Instruction) :=
  region.flatMap fun block => block.pcs.filterMap fun pc => (chunk.code[pc.toNat]?).map (pc, ·)

end CompiledTrace

def leafCosts (chunk : Chunk) (instr : Instruction) : List UInt32 :=
  match leafBody chunk instr.imm.toUInt32 with
  | some leaf => if leaf.arity = instr.b then leaf.pcs else []
  | none => []

def compileTrace (chunk : Chunk) (key : TraceKey) : Except CompileError CompiledTrace := do
  let empty : CompileError := .emptyTrace key.function key.entryPc
  match chunk.function key.function, collectTraceRegion chunk key with
  | some fn, some (first :: rest) => do
    let region := first :: rest
    let rows := CompiledTrace.instructions chunk region
    let calls := rows.filter (·.2.op == .call)
    let supportsCalls := !calls.isEmpty
    let widest := chunk.functions.foldl (fun slots other => max slots other.numRegisters.toNat) fn.numRegisters.toNat
    if (region.find? (·.startPc == key.entryPc)).isNone then throw empty
    rows.forM fun row => emitCheck chunk key.floats row.1 row.2
    return {
      chunk := chunk
      key := key
      region := region
      regSlots := if supportsCalls then widest else fn.numRegisters.toNat
      supportsCalls := supportsCalls
      skipBudget := calls.flatMap fun row => leafCosts chunk row.2 }
  | _, _ => throw empty

end Byteflow
