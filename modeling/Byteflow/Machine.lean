import Byteflow.Exec
import Byteflow.Chunk

namespace Byteflow

inductive NativeCallError where
  | noNativeRight
  | indexNotAllowlisted (idx : NativeIdx)
  | indexOutOfRange (idx : NativeIdx)
  | revoked
deriving DecidableEq, Repr

inductive Fault where
  | divideByZero
  | registerOutOfRange (reg frameSize : UInt8)
  | registerIndexOverflow (base offset : UInt8)
  | badConstant (index poolSize : UInt32)
  | badFunction (index tableSize : UInt32)
  | badArity (passed : Nat) (expected : UInt8)
  | callStackOverflow (depth : Nat)
  | typeMismatch (expected got : String)
  | badNative (index tableSize : UInt32)
  | nativeError (message : String)
  | nativeDenied (error : NativeCallError)
  | explicit (code : Int32)
  | invariant (what : String)
  | quotaExceeded (message : String)
  | badJump (target codeLen : Nat)
deriving DecidableEq, Repr

def heapChargeDoesNotFit : Fault := .quotaExceeded "heap charge does not fit"
def valueNestingExceedsLimit : Fault := .quotaExceeded "value nesting exceeds limit"

-- The memory half of FlowQuota: the CPU budget and the token buckets are
-- used by the scheduler only.
structure FlowQuota where
  memLimit : Nat
  memUsed : Nat
deriving DecidableEq, Repr

def FlowQuota.alloc (layout : Layout) (quota : FlowQuota) (bytes : Nat) : Except Fault FlowQuota :=
  let exhausted := Fault.quotaExceeded
    s!"flow memory exhausted (requested {bytes}, limit {quota.memLimit})"
  match layout.checkedAdd quota.memUsed bytes with
  | none => .error exhausted
  | some next => if next > quota.memLimit then .error exhausted else .ok { quota with memUsed := next }

def FlowQuota.free (quota : FlowQuota) (bytes : Nat) : FlowQuota :=
  { quota with memUsed := quota.memUsed - bytes }

structure MemoryBudget where
  limit : Nat
  used : Nat
deriving DecidableEq, Repr

def MemoryBudget.tryCharge (layout : Layout) (memory : MemoryBudget) (bytes : Nat) : Except Fault MemoryBudget :=
  if bytes = 0 then .ok memory
  else match layout.checkedAdd memory.used bytes with
    | none => .error (.quotaExceeded "runtime memory accounting overflow")
    | some next =>
      if next > memory.limit then .error (.quotaExceeded
        s!"runtime memory limit exceeded: requested={bytes}, used={memory.used}, limit={memory.limit}")
      else .ok { memory with used := next }

def MemoryBudget.release (memory : MemoryBudget) (bytes : Nat) : MemoryBudget :=
  { memory with used := memory.used - bytes }

def chargePair (layout : Layout) (quota : FlowQuota) (memory : Option MemoryBudget) (bytes : Nat) :
    Except Fault (FlowQuota × Option MemoryBudget) :=
  if bytes = 0 then .ok (quota, memory)
  else do
    let charged ← quota.alloc layout bytes
    match memory with
    | none => .ok (charged, none)
    | some budget => do
      let budget ← budget.tryCharge layout bytes
      .ok (charged, some budget)

def releasePair (quota : FlowQuota) (memory : Option MemoryBudget) (bytes : Nat) :
    FlowQuota × Option MemoryBudget :=
  if bytes = 0 then (quota, memory) else (quota.free bytes, memory.map (·.release bytes))

-- A host closure may answer differently at every call. The instruction
-- counter of the calling Vm names the call.
abbrev NativeFn := Nat → List Value → Except Fault Value

structure NativeTable where
  entries : List (Option (String × NativeFn))

def NativeTable.get (table : NativeTable) (index : UInt32) : Option NativeFn :=
  ((table.entries[index.toNat]?).join).map Prod.snd

def NativeTable.len (table : NativeTable) : Nat := table.entries.length

-- The two cells are shared with the capability table: flowCell and nativeCell
-- are the epochs they show now, the other two those of the snapshot.
structure NativeGate where
  hasNative : Bool
  mask : NativeMask
  authorityEpoch : UInt64
  flowCell : UInt64
  nativeEpoch : UInt64
  nativeCell : UInt64
deriving DecidableEq, Repr

def NativeGate.deny (nativeCount : Nat) : NativeGate := ⟨false, NativeMask.empty nativeCount, 0, 0, 0, 0⟩

def NativeGate.isLive (gate : NativeGate) : Bool :=
  gate.flowCell == gate.authorityEpoch && gate.nativeCell == gate.nativeEpoch

def checkNativeGate (gate : NativeGate) (table : NativeTable) (idx : NativeIdx) : Except NativeCallError Unit :=
  if idx.toNat ≥ table.len then .error (.indexOutOfRange idx)
  else if !gate.isLive then .error .revoked
  else if !gate.hasNative then .error .noNativeRight
  else if gate.mask.allows idx then .ok () else .error (.indexNotAllowlisted idx)

structure Frame where
  function : UInt32
  pc : Nat
  registers : List Value
  destReg : Option UInt8
  heapCharge : Nat

namespace Frame

def new (function : UInt32) (numRegisters : UInt8) (destReg : Option UInt8) : Frame :=
  ⟨function, 0, List.replicate numRegisters.toNat .unit, destReg, 0⟩

def frameSize (frame : Frame) : UInt8 := UInt8.ofNat frame.registers.length

def write (frame : Frame) (index : Nat) (value : Value) : Frame :=
  { frame with registers := frame.registers.set index value }

def tryAddHeapCharge (layout : Layout) (frame : Frame) (delta : Nat) : Option Frame :=
  (layout.checkedAdd frame.heapCharge delta).map fun next => { frame with heapCharge := next }

def subHeapCharge (frame : Frame) (delta : Nat) : Frame :=
  { frame with heapCharge := frame.heapCharge - delta }

end Frame

-- walk of heap_charge_of.
mutual
def Value.chargeWalk (layout : Layout) (depth : Nat) (value : Value) : Except Fault Nat :=
  if depth > MAX_VALUE_DEPTH then .error valueNestingExceedsLimit
  else match value with
    | .str text => .ok text.utf8ByteSize
    | .bytes data => .ok data.length
    | .message hop => payloadCharge layout (depth + 1) hop
    | .list items =>
      match layout.checkedMul items.length layout.sizeOfValue with
      | none => .error heapChargeDoesNotFit
      | some sum => itemsCharge layout (depth + 1) sum items
    | .record fields =>
      match layout.checkedMul fields.length layout.sizeOfValue with
      | none => .error heapChargeDoesNotFit
      | some sum => itemsCharge layout (depth + 1) sum fields
    | .map entries =>
      match layout.checkedMul entries.length layout.sizeOfValue with
      | none => .error heapChargeDoesNotFit
      | some sum => entriesCharge layout (depth + 1) sum entries
    | .unit | .bool _ | .int _ | .float _ | .pid _ | .cap _ => .ok 0

def payloadCharge (layout : Layout) (depth : Nat) : Envelope Value → Except Fault Nat
  | ⟨_, _, _, _, payload⟩ => Value.chargeWalk layout depth payload

def itemsCharge (layout : Layout) (depth sum : Nat) : List Value → Except Fault Nat
  | [] => .ok sum
  | item :: rest => do
    let part ← Value.chargeWalk layout depth item
    match layout.checkedAdd sum part with
    | some total => itemsCharge layout depth total rest
    | none => .error heapChargeDoesNotFit

def entriesCharge (layout : Layout) (depth sum : Nat) : List (MapKey × Value) → Except Fault Nat
  | [] => .ok sum
  | entry :: rest => do
    let total ← entryCharge layout depth sum entry
    entriesCharge layout depth total rest

def entryCharge (layout : Layout) (depth sum : Nat) : MapKey × Value → Except Fault Nat
  | (.str text, value) =>
    match layout.checkedAdd sum text.utf8ByteSize with
    | none => .error heapChargeDoesNotFit
    | some sum => do
      let part ← Value.chargeWalk layout depth value
      match layout.checkedAdd sum part with
      | some total => .ok total
      | none => .error heapChargeDoesNotFit
  | (.int _, value) => do
    let part ← Value.chargeWalk layout depth value
    match layout.checkedAdd sum part with
    | some total => .ok total
    | none => .error heapChargeDoesNotFit
end

def heapChargeOf (layout : Layout) (value : Value) : Except Fault Nat := value.chargeWalk layout 0

def dictOwnedBytes : Value → Except Fault Nat
  | .unit | .bool _ | .int _ | .float _ => .ok 0
  | .str text => .ok text.utf8ByteSize
  | .bytes data => .ok data.length
  | other => .error (.typeMismatch "dict value (scalar, str, or bytes)" other.typeName)

def regAt (base : UInt8) (offset : Nat) : Except Fault UInt8 :=
  if base.toNat + offset < 256 then .ok (UInt8.ofNat (base.toNat + offset))
  else .error (.registerIndexOverflow base (UInt8.ofNat (min offset 255)))

def asF64 : Value → Except Fault F64
  | .int n => .ok (F64.ofInt64 n)
  | .float x => .ok x
  | other => .error (.typeMismatch "int or float" other.typeName)

def requireInt : Value → Except Fault Int64
  | .int n => .ok n
  | other => .error (.typeMismatch "int" other.typeName)

def tagFromImm (imm : Int32) : Except Fault UInt16 :=
  match u16TryFrom imm with
  | some tag => .ok tag
  | none => .error (.typeMismatch "tag u16" "imm-out-of-range")

def tagFromValue (value : Value) : Except Fault UInt16 := do
  let n ← requireInt value
  if 0 ≤ n.toInt ∧ n.toInt < 2 ^ 16 then .ok (UInt16.ofNat n.toInt.toNat)
  else .error (.typeMismatch "tag u16" "int-out-of-range")

def requestIdFromValue (value : Value) : Except Fault UInt64 := do
  let n ← requireInt value
  if 0 ≤ n.toInt then .ok n.toUInt64 else .error (.typeMismatch "request_id u64" "negative-int")

def durationFromValue (value : Value) : Except Fault Nat := do
  let n ← requireInt value
  if 0 ≤ n.toInt then .ok n.toInt.toNat else .error (.typeMismatch "non-negative int" "negative-int")

def loadFrameArgsFrom (i : Nat) (frame : Frame) : List Value → Except Fault Frame
  | [] => .ok frame
  | value :: rest =>
    if i < frame.registers.length then loadFrameArgsFrom (i + 1) (frame.write i value) rest
    else .error (.registerOutOfRange (UInt8.ofNat i) frame.frameSize)

def loadFrameArgs (frame : Frame) (args : List Value) (arity : UInt8) : Except Fault Frame :=
  loadFrameArgsFrom 0 frame (args.take arity.toNat)

structure ReceiveRequest where
  destReg : UInt8
  timeout : Option Nat := none
  matchTag : Option UInt16 := none
  matchRequestId : Option UInt64 := none
  matchPayloadKind : Option UInt8 := none
  matchPayloadEq : Option Int64 := none
  matchPayloadValue : Option Value := none
  matchPayloadCmp : Option (IntCmp × Int64) := none

-- VmResult::Trap is the error side of run.
inductive VmResult where
  | complete (value : Value)
  | yield
  | sleep (millis : Nat)
  | spawn (function : UInt32) (args : List Value) (destReg : UInt8) (requestedRights : CapRights)
  | selfPid (destReg : UInt8)
  | send (targetCap : CapId) (message : Value)
  | receive (request : ReceiveRequest)
  | tableOpen (destReg : UInt8) (name : String)
  | tableGet (destReg : UInt8) (cap : CapId) (key : Value)
  | tablePut (cap : CapId) (key value : Value)
  | sendRemote (node : UInt64) (name : String) (message : Value)
  | startSupervisor (strategy : UInt8)
  | ask (destReg : UInt8) (targetCap : CapId) (request : Value) (timeout : Option Nat)
  | monitor (destReg : UInt8) (targetCap : CapId)
  | demonitor (monitorReg : UInt8)
  | link (destReg : UInt8) (targetCap : CapId)
  | unlink (linkReg : UInt8)
  | setTrapExit (enabled : Bool)
  | setRestartPolicy (policy : UInt8)
  | hostAwait (destReg : UInt8) (op : UInt32) (args : Value)
  | registerName (name : String)
  | whereis (destReg : UInt8) (name : String)
  | isAlive (destReg : UInt8) (targetCap : CapId)
  | exitSignal (targetCap : CapId) (reason : UInt64)
  | startChild (destReg : UInt8) (function : UInt32) (policy : UInt8)
  | delegate (destReg : UInt8) (srcCap : CapId) (wantRights : CapRights) (wantNativeCap : Option CapId)

-- frames is the source's Vec with the active frame first. The dictionary is
-- an association list with one row per key.
structure Vm where
  layout : Layout
  chunk : Chunk
  natives : NativeTable
  nativeGate : NativeGate
  frames : List Frame
  instructionsExecuted : Nat
  nextRequestId : UInt64
  quota : Option FlowQuota
  memory : Option MemoryBudget
  dict : List (Int64 × Value)
  dictBytes : Nat

def MAX_CALL_DEPTH : Nat := 4096

abbrev VmM := Exec Vm Fault

namespace Vm

open Exec

def emptyFrameStack : Fault := .invariant "empty frame stack while running"

def withNativeGate (layout : Layout) (chunk : Chunk) (natives : NativeTable) (nativeGate : NativeGate)
    (function : UInt32) (args : List Value) : Except Fault Vm :=
  match chunk.function function with
  | none => .error (.badFunction function (UInt32.ofNat chunk.functions.length))
  | some fn => do
    let frame ← loadFrameArgs { Frame.new function fn.numRegisters none with pc := fn.entry.toNat } args fn.arity
    .ok ⟨layout, chunk, natives, nativeGate, [frame], 0, 1, none, none, [], 0⟩

def registersCharge (layout : Layout) (sum : Nat) : List Value → Except Fault Nat
  | [] => .ok sum
  | value :: rest => do
    let part ← heapChargeOf layout value
    match layout.checkedAdd sum part with
    | some total => registersCharge layout total rest
    | none => .error heapChargeDoesNotFit

def framesCharge (layout : Layout) (total : Nat) : List Frame → Except Fault (List Nat × Nat)
  | [] => .ok ([], total)
  | frame :: rest => do
    let bytes ← registersCharge layout 0 frame.registers
    match layout.checkedAdd total bytes with
    | none => .error heapChargeDoesNotFit
    | some total => do
      let (perFrame, total) ← framesCharge layout total rest
      .ok (bytes :: perFrame, total)

def setQuota (quota : FlowQuota) (vm : Vm) : Except Fault Vm := do
  -- The source walks the stack from the bottom frame up.
  let (perFrame, total) ← framesCharge vm.layout 0 vm.frames.reverse
  match vm.layout.checkedAdd total vm.dictBytes with
  | none => .error heapChargeDoesNotFit
  | some total => do
    let (quota, memory) ← chargePair vm.layout quota vm.memory total
    .ok { vm with
      quota := some quota
      memory := memory
      frames := List.zipWith (fun frame bytes => { frame with heapCharge := bytes }) vm.frames perFrame.reverse }

def setMemoryBudget (memory : MemoryBudget) (vm : Vm) : Vm := { vm with memory := some memory }

def current (vm : Vm) : Except Fault Frame :=
  match vm.frames with
  | [] => .error emptyFrameStack
  | frame :: _ => .ok frame

def getReg (reg : UInt8) (vm : Vm) : Except Fault Value := do
  let frame ← vm.current
  match frame.registers[reg.toNat]? with
  | some value => .ok value
  | none => .error (.registerOutOfRange reg frame.frameSize)

def setTop (frame : Frame) (vm : Vm) : Vm := { vm with frames := frame :: vm.frames.tail }

def charge (bytes : Nat) : VmM Unit := do
  let vm ← get
  match vm.quota with
  | none => pure ()
  | some quota =>
    match chargePair vm.layout quota vm.memory bytes with
    | .error fault => throw fault
    | .ok (quota, memory) => set { vm with quota := some quota, memory := memory }

def release (bytes : Nat) : VmM Unit := modify fun vm =>
  match vm.quota with
  | none => vm
  | some quota =>
    let (quota, memory) := releasePair quota vm.memory bytes
    { vm with quota := some quota, memory := memory }

-- Writing the buffer a register already holds returns early in the source.
-- Its charge and its content do not change, so the general path agrees.
def setReg (reg : UInt8) (value : Value) : VmM Unit := do
  let frame ← reading current
  let old ← reading (getReg reg)
  if old.isScalar && value.isScalar then
    modify (setTop (frame.write reg.toNat value))
  else
    let layout := (← get).layout
    let oldBytes ← reading fun _ => heapChargeOf layout old
    let newBytes ← reading fun _ => heapChargeOf layout value
    if newBytes > oldBytes then
      let delta := newBytes - oldBytes
      charge delta
      match frame.tryAddHeapCharge layout delta with
      | none =>
        release delta
        throw heapChargeDoesNotFit
      | some frame => modify (setTop (frame.write reg.toNat value))
    else if oldBytes > newBytes then
      release (oldBytes - newBytes)
      modify (setTop ((frame.subHeapCharge (oldBytes - newBytes)).write reg.toNat value))
    else
      modify (setTop (frame.write reg.toNat value))

def fetch : VmM (Option Instruction) := do
  let frame ← reading current
  match (← get).chunk.code[frame.pc]? with
  | none => pure none
  | some instr =>
    modify (setTop { frame with pc := frame.pc + 1 })
    pure (some instr)

def intFromReg (reg : UInt8) (vm : Vm) : Except Fault Int64 := do requireInt (← vm.getReg reg)

def expectCapReg (reg : UInt8) (vm : Vm) : Except Fault CapId := do
  let value ← vm.getReg reg
  match value.asCap with
  | some id => .ok id
  | none => .error (.typeMismatch "cap" value.typeName)

def expectMessageValue (reg : UInt8) (vm : Vm) : Except Fault Value := do
  let value ← vm.getReg reg
  match value.asMessage with
  | some _ => .ok value
  | none => .error (.typeMismatch "message" value.typeName)

def expectStrReg (reg : UInt8) (vm : Vm) : Except Fault String := do
  match ← vm.getReg reg with
  | .str text => .ok text
  | other => .error (.typeMismatch "str" other.typeName)

def tagFromReg (reg : UInt8) (vm : Vm) : Except Fault UInt16 := do tagFromValue (← vm.getReg reg)

def requestIdFromReg (reg : UInt8) (vm : Vm) : Except Fault UInt64 := do requestIdFromValue (← vm.getReg reg)

def durationMillisFromReg (reg : UInt8) (vm : Vm) : Except Fault Nat := do durationFromValue (← vm.getReg reg)

def gatherRegs (base argc : UInt8) (firstOffset : Nat) (vm : Vm) : Except Fault (List Value) :=
  (List.range argc.toNat).mapM fun i => do vm.getReg (← regAt base (firstOffset + i))

def applyRelativeJump (imm : Int32) : VmM Unit := do
  let vm ← get
  let frame ← reading current
  let codeLen := vm.chunk.code.length
  let target : Int := frame.pc + imm.toInt
  if target < 0 ∨ target.toNat > codeLen then
    throw (.badJump (if target < 0 then vm.layout.usizeMax else target.toNat) codeLen)
  else modify (setTop { frame with pc := target.toNat })

def popFrame (value : Value) : VmM (Option VmResult) := do
  let vm ← get
  match vm.frames with
  | [] => throw (.invariant "pop_frame on empty stack")
  | finished :: below =>
    match finished.destReg with
    | some dest =>
      modify fun vm => { vm with frames := below }
      release finished.heapCharge
      setReg dest value
      pure none
    | none =>
      let keep ← reading fun _ => heapChargeOf vm.layout value
      modify fun vm => { vm with frames := below }
      release (finished.heapCharge - keep)
      pure (some (.complete value))

def rollback {α : Type} (charged : Nat) (fault : Fault) : VmM α := do
  if charged > 0 then release charged
  throw fault

def chargeArg (charged : Nat) (frame : Frame) (value : Value) : VmM (Frame × Nat) := do
  let layout := (← get).layout
  let bytes ← reading fun _ => heapChargeOf layout value
  if bytes > 0 then do
    onError (charge bytes) (rollback charged)
    match layout.checkedAdd charged bytes with
    | none => do
      release charged
      release bytes
      throw heapChargeDoesNotFit
    | some next =>
      match frame.tryAddHeapCharge layout bytes with
      | none => do
        release next
        throw heapChargeDoesNotFit
      | some frame => pure (frame, next)
  else pure (frame, charged)

-- charged is what this call has reserved so far; every failure gives it back,
-- except that of heap_charge_of itself.
def loadFrameArgsChargedFrom (i charged : Nat) (frame : Frame) : List Value → VmM Frame
  | [] => pure frame
  | value :: rest => do
    let (frame, charged) ← chargeArg charged frame value
    if i < frame.registers.length then
      loadFrameArgsChargedFrom (i + 1) charged (frame.write i value) rest
    else rollback charged (.registerOutOfRange (UInt8.ofNat i) frame.frameSize)

def loadFrameArgsCharged (frame : Frame) (args : List Value) (arity : UInt8) : VmM Frame :=
  loadFrameArgsChargedFrom 0 0 frame (args.take arity.toNat)

def adjustDictQuota (oldBytes newBytes : Nat) : VmM Unit := do
  if newBytes > oldBytes then
    let delta := newBytes - oldBytes
    charge delta
    let vm ← get
    match vm.layout.checkedAdd vm.dictBytes delta with
    | some next => set { vm with dictBytes := next }
    | none =>
      release delta
      throw heapChargeDoesNotFit
  else if oldBytes > newBytes then
    let delta := oldBytes - newBytes
    release delta
    modify fun vm => { vm with dictBytes := vm.dictBytes - delta }
  else pure ()

def dictLookup (key : Int64) (vm : Vm) : Option Value := (vm.dict.find? (·.1 == key)).map Prod.snd

def dictRemove (key : Int64) (vm : Vm) : Vm := { vm with dict := vm.dict.filter (·.1 != key) }

def dictInsert (key : Int64) (value : Value) (vm : Vm) : Vm :=
  { vm with dict := (key, value) :: vm.dict.filter (·.1 != key) }

def freshRequestId : VmM UInt64 := do
  let vm ← get
  let id := if vm.nextRequestId = 0 then 1 else vm.nextRequestId
  let max : UInt64 := 0x7FFFFFFFFFFFFFFF
  if id ≥ max then
    set { vm with nextRequestId := max }
    pure max
  else
    set { vm with nextRequestId := id + 1 }
    pure id

end Vm

end Byteflow
