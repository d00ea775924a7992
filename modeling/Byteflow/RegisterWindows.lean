import Byteflow.StepFaults

namespace Byteflow

open List Exec

def Fault.isRegister : Fault → Bool
  | .registerOutOfRange .. => true
  | _ => false

def VmResult.childReg : VmResult → Option UInt8
  | .spawn _ _ destReg _ => some destReg
  | .startChild destReg _ _ => some destReg
  | _ => none

namespace Vm

def NoRegisterFault {α : Type} (m : VmM α) (vm : Vm) : Prop := Raises (fun fault => fault.isRegister = false) m vm

-- The host answers a spawn later, when the accounts and the gate may have changed.
def ChildStored (after : Vm) (result : VmResult) : Prop :=
  ∀ dest, result.childReg = some dest → ∀ value quota memory nativeGate,
    NoRegisterFault (resumeWith dest value) { after with quota := quota, memory := memory, nativeGate := nativeGate }

-- No window and no destination of the step lies outside its register file. The
-- result of a call is stored by the return, after it has dropped its frame.
def WindowsHold (before : Vm) : Prop :=
  match before.nextInstruction with
  | none => NoRegisterFault step before
  | some instr =>
    match instr.op with
    | .call | .tailCall | .callNative | .callNativeFrom => NoRegisterFault step before
    | .spawn | .startChild =>
      NoRegisterFault step before ∧
        ∀ result after, exec step before = (.ok (some result), after) → ChildStored after result
    | .ret => ∀ reg size after, exec step before = (.error (.registerOutOfRange reg size), after) →
        after.frames.length = before.frames.length
    | .askTimeout => ∀ reg size after, exec step before = (.error (.registerOutOfRange reg size), after) →
        u8TryFrom instr.imm ≠ some reg
    | _ => True

-- A CallNative without arguments whose native returns a value has a register for it.
def NativeResultFits (before : Vm) : Prop :=
  ∀ frame below instr native value, before.frames = frame :: below → before.nextInstruction = some instr →
    instr.op = .callNative → instr.b = 0 →
    checkNativeGate before.nativeGate before.natives instr.imm.toUInt32 = .ok () →
    before.natives.get instr.imm.toUInt32 = some native → native (before.instructionsExecuted + 1) [] = .ok value →
      instr.a.toNat < frame.registers.length

section Execute

variable {vm : Vm} {size : Nat} {instr : Instruction} {target : FunctionDef}

theorem no_register_of_quota {fault : Fault} (quota : fault.isQuota = true) : fault.isRegister = false := by
  cases fault with
  | quotaExceeded message => rfl
  | _ => cases quota

theorem no_register_store (reg : UInt8) (inside : reg.toNat < size) {fault : Fault} (store : StoreFault reg size fault) :
    fault.isRegister = false :=
  no_register_of_quota (store.resolve_right fun outside => absurd inside (Nat.not_lt.mpr outside.2))

structure CallFits (vm : Vm) (size : Nat) (instr : Instruction) (callee : FunctionDef) : Prop where
  sized : vm.Sized size
  small : size ≤ 255
  known : vm.chunk.function instr.imm.toUInt32 = some callee
  arity : instr.b = callee.arity
  loads : callee.arity.toNat ≤ callee.numRegisters.toNat
  window : instr.b.toNat = 0 ∨ instr.a.toNat + instr.b.toNat ≤ size

theorem callee_ok (fits : CallFits vm size instr target) : callee instr.imm.toUInt32 instr.b vm = .ok target := by
  simp [callee, fits.known, fits.arity]

theorem callee_no_error (fits : CallFits vm size instr target) (fault : Fault)
    (failed : callee instr.imm.toUInt32 instr.b vm = .error fault) : fault.isRegister = false := by
  rw [callee_ok fits] at failed
  cases failed

theorem gather_no_error (sized : vm.Sized size) (small : size ≤ 255) {base argc : UInt8} {offset : Nat}
    (window : argc.toNat = 0 ∨ base.toNat + offset + argc.toNat ≤ size) (fault : Fault)
    (failed : vm.gatherRegs base argc offset = .error fault) : fault.isRegister = false := by
  obtain ⟨args, gathered⟩ := gather_regs_ok sized small window
  rw [gathered] at failed
  cases failed

theorem enter_no_fault (loads : target.arity.toNat ≤ target.numRegisters.toNat) (function : UInt32)
    (destReg : Option UInt8) (args : List Value) (vm : Vm) :
    NoRegisterFault (do pushFrame (← loadFrameArgsCharged
      { Frame.new function target.numRegisters destReg with pc := target.entry.toNat } args target.arity)) vm := by
  refine raises_bind (raises_mono (load_frame_args_raises _ 0 0 _ vm ?_) fun _ => no_register_of_quota)
    fun _ _ _ => raises_modify _
  have taken : (args.take target.arity.toNat).length ≤ target.arity.toNat := length_take_le _ _
  simp only [Frame.new, length_replicate]
  omega

theorem call_no_fault (fits : CallFits vm size instr target) : NoRegisterFault (call instr) vm := by
  refine raises_get_bind (raises_ite _ (fun _ => raises_throw _ rfl) fun _ => ?_)
  refine raises_reading_bind (callee_no_error fits) fun fn isFn => ?_
  rw [callee_ok fits] at isFn
  cases isFn
  refine raises_reading_bind (gather_no_error fits.sized fits.small (by simpa using fits.window)) fun args _ => ?_
  exact enter_no_fault fits.loads _ _ args vm

theorem tail_call_no_fault (fits : CallFits vm size instr target) : NoRegisterFault (tailCall instr) vm := by
  refine raises_reading_bind (callee_no_error fits) fun fn isFn => ?_
  rw [callee_ok fits] at isFn
  cases isFn
  refine raises_reading_bind (gather_no_error fits.sized fits.small (by simpa using fits.window)) fun args _ => ?_
  obtain ⟨frame, isFrame, _⟩ := sized_current fits.sized
  refine raises_reading_bind (fun fault failed => ?_) fun finished _ => ?_
  · rw [isFrame] at failed
    cases failed
  refine raises_bind (raises_modify _) fun _ _ _ => raises_bind (raises_modify _) fun _ after _ => ?_
  exact enter_no_fault fits.loads _ _ args after

theorem call_native_no_fault (sized : vm.Sized size) (small : size ≤ 255) {argBase argc : UInt8}
    (contract : vm.natives.ReportsOnly) (window : argc.toNat = 0 ∨ argBase.toNat + argc.toNat ≤ size)
    (stores : ∀ args native value, vm.gatherRegs argBase argc 0 = .ok args →
      checkNativeGate vm.nativeGate vm.natives instr.imm.toUInt32 = .ok () →
      vm.natives.get instr.imm.toUInt32 = some native → native vm.instructionsExecuted args = .ok value →
        instr.a.toNat < size) :
    NoRegisterFault (callNative instr argBase argc) vm := by
  refine raises_get_bind ?_
  split
  case h_1 => exact raises_throw _ rfl
  case h_2 => exact raises_throw _ rfl
  case h_3 open_ =>
    refine raises_reading_bind (gather_no_error sized small (by simpa using window)) fun args gathered => ?_
    split
    case h_1 => exact raises_throw _ rfl
    case h_2 native isNative =>
      refine raises_reading_bind (fun fault failed => ?_) fun value returned => ?_
      · obtain ⟨message, rfl⟩ := contract _ native isNative _ args fault failed
        rfl
      · have inside := stores args native value gathered open_ isNative returned
        exact raises_mono (set_reg_raises sized instr.a value) fun _ => no_register_store instr.a inside

end Execute

section Step

variable {chunk : Chunk} {before : Vm} {instr : Instruction}

variable {frame : Frame} {below : List Frame} {fn : FunctionDef}

theorem size_small (fn : FunctionDef) : fn.numRegisters.toNat ≤ 255 := Nat.le_of_lt_succ fn.numRegisters.toNat_lt

variable (fetched : Fetched chunk before frame below fn instr)

include fetched

theorem fetched_call (calls : instr.op = .call ∨ instr.op = .tailCall) :
    ∃ target, CallFits (before.advanced frame below) fn.numRegisters.toNat instr target := by
  have at_ := fetched.at_
  obtain ⟨target, known, arity, _, window⟩ :=
    verified_call at_.verified (function_mem at_.known) at_.inside at_.found calls
  have sameChunk : before.chunk = chunk := at_.running.sameChunk
  exact ⟨target, fetched.sized, size_small fn, sameChunk.symm ▸ known, arity, at_.verified.arityFits target (function_mem known),
    window⟩

omit fetched in
theorem returns_inside (linked : Linked (frame.shape :: below.map Frame.shape)) (dest : UInt8) (isDest : frame.destReg = some dest) :
    ∃ caller rest, below = caller :: rest ∧ dest.toNat < caller.registers.length := by
  cases below with
  | nil =>
    have bottom : frame.destReg = none := linked
    rw [bottom] at isDest
    cases isDest
  | cons caller rest =>
    obtain ⟨⟨reg, isReg, inside⟩, _⟩ := linked
    have same : frame.destReg = some reg := isReg
    rw [isDest] at same
    cases same
    exact ⟨caller, rest, rfl, inside⟩

theorem fetched_linked : Linked (frame.shape :: below.map Frame.shape) := by
  have linked := fetched.at_.running.linked
  rw [fetched.at_.frames] at linked
  exact linked

theorem return_fault (isOp : instr.op = .ret) {reg size : UInt8} {after : Vm}
    (failed : exec step before = (.error (.registerOutOfRange reg size), after)) : after.frames.length = before.frames.length := by
  rw [fetched.stepped] at failed
  simp only [execute, isOp, exec_bind, exec_reading] at failed
  cases read : (before.advanced frame below).getReg instr.a with
  | error fault =>
    rw [read] at failed
    cases failed
    rw [fetched.frames]
    rfl
  | ok value =>
    rw [read] at failed
    have frames : (before.advanced frame below).frames = { frame with pc := frame.pc + 1 } :: below := rfl
    have returns := returns_inside (fetched_linked fetched)
    have quota := pop_frame_raises value frames returns _ _ failed
    cases quota

omit fetched in
theorem implicit_return_no_fault (running : Running chunk before.shape) (missing : before.nextInstruction = none) :
    NoRegisterFault step before := by
  obtain ⟨frame, below, frames, stepped⟩ := step_returns running missing
  have linked : Linked (frame.shape :: below.map Frame.shape) := by
    have linked := running.linked
    rwa [shape, frames] at linked
  intro fault after failed
  rw [stepped] at failed
  have counted : ({ before with instructionsExecuted := before.instructionsExecuted + 1 } : Vm).frames = frame :: below := frames
  exact no_register_of_quota (pop_frame_raises .unit counted (returns_inside linked) fault after failed)

theorem step_no_fault
    (executes : NoRegisterFault (execute instr) (before.advanced frame below)) : NoRegisterFault step before := by
  intro fault after failed
  rw [fetched.stepped] at failed
  exact executes fault after failed

omit fetched in
theorem resume_no_fault (sized : before.Sized fn.numRegisters.toNat) {dest : UInt8} (inside : dest.toNat < fn.numRegisters.toNat)
    (value : Value) (quota : Option FlowQuota) (memory : Option MemoryBudget) (nativeGate : NativeGate) :
    NoRegisterFault (resumeWith dest value) { before with quota := quota, memory := memory, nativeGate := nativeGate } := by
  have same : ({ before with quota := quota, memory := memory, nativeGate := nativeGate } : Vm).Sized fn.numRegisters.toNat :=
    sized
  exact raises_mono (set_reg_raises same dest value) fun _ => no_register_store dest inside

theorem spawn_windows (isOp : instr.op = .spawn) :
    NoRegisterFault step before ∧
      ∀ result after, exec step before = (.ok (some result), after) → ChildStored after result := by
  have at_ := fetched.at_
  have checked := at_.verified.instruction _ _ at_.found
  simp only [verifyInstruction, isOp] at checked
  obtain ⟨_, _, _, inside, window⟩ := verify_call_ok (function_mem at_.known) at_.inside checked
  rw [isOp, if_pos rfl] at window
  obtain ⟨args, gathered⟩ := gather_regs_ok fetched.sized (size_small fn) window
  have done : exec step before = (.ok (some (.spawn instr.imm.toUInt32 args instr.a (CapRights.fromU8 instr.c))),
      before.advanced frame below) := by
    rw [fetched.stepped]
    simp only [execute, isOp, exec_bind, exec_reading, gathered, exec_pure]
  refine ⟨fun fault after failed => ?_, fun result after ran => ?_⟩
  · rw [done] at failed
    cases failed
  · rw [done] at ran
    cases ran
    intro dest isDest value quota memory nativeGate
    cases isDest
    exact resume_no_fault fetched.sized inside value quota memory nativeGate

theorem start_child_windows (isOp : instr.op = .startChild) :
    NoRegisterFault step before ∧
      ∀ result after, exec step before = (.ok (some result), after) → ChildStored after result := by
  have at_ := fetched.at_
  have inside := verified_child_dest at_.verified (function_mem at_.known) at_.inside at_.found isOp
  constructor
  · refine step_no_fault fetched ?_
    simp only [NoRegisterFault, execute, isOp]
    exact raises_get_bind (raises_ite _ (fun _ => raises_throw _ rfl) fun _ =>
      raises_ite _ (fun _ => raises_throw _ rfl) fun _ => raises_pure _)
  · intro result after ran dest isDest value quota memory nativeGate
    rw [fetched.stepped] at ran
    simp only [execute, isOp, exec_bind, exec_get] at ran
    split at ran
    · cases ran
    · split at ran
      · cases ran
      · cases ran
        cases isDest
        exact resume_no_fault fetched.sized inside value quota memory nativeGate

omit fetched in
def Beyond (size : Nat) (fault : Fault) : Prop := ∀ reg frameSize, fault = .registerOutOfRange reg frameSize → size ≤ reg.toNat

omit fetched in
theorem get_reg_beyond {size : Nat} {vm : Vm} {reg : UInt8} (sized : vm.Sized size) (fault : Fault)
    (failed : vm.getReg reg = .error fault) : Beyond size fault := by
  obtain ⟨rfl, outside⟩ := get_reg_error sized failed
  intro other frameSize same
  cases same
  exact outside

theorem ask_timeout_beyond (isOp : instr.op = .askTimeout) {millisReg : UInt8}
    (isMillis : u8TryFrom instr.imm = some millisReg) :
    Raises (Beyond fn.numRegisters.toNat) (execute instr) (before.advanced frame below) := by
  have registers : ∀ {reg : UInt8} (fault : Fault), (before.advanced frame below).getReg reg = .error fault →
      Beyond fn.numRegisters.toNat fault := fun fault failed => get_reg_beyond fetched.sized fault failed
  simp only [execute, isOp, isMillis]
  refine raises_reading_bind (read_error registers fun value fault failed => ?_) fun timeout _ =>
    raises_reading_bind (read_error registers fun value fault failed => ?_) fun targetCap _ =>
      raises_reading_bind (read_error registers fun value fault failed => ?_) fun request _ => raises_pure _
  · rcases ranged_error failed with ⟨got, rfl⟩ | rfl
    · exact fun _ _ same => by cases same
    · exact fun _ _ same => by cases same
  · rw [cap_error failed]
    exact fun _ _ same => by cases same
  · rw [message_error failed]
    exact fun _ _ same => by cases same

theorem ask_timeout_fault (isOp : instr.op = .askTimeout) {reg size : UInt8}
    {after : Vm} (failed : exec step before = (.error (.registerOutOfRange reg size), after)) :
    u8TryFrom instr.imm ≠ some reg := by
  have at_ := fetched.at_
  obtain ⟨millisReg, isMillis, inside⟩ :=
    verified_ask_timeout at_.verified (function_mem at_.known) at_.inside at_.found isOp
  intro same
  cases isMillis.symm.trans same
  rw [fetched.stepped] at failed
  have outside := ask_timeout_beyond fetched isOp isMillis _ _ failed reg size rfl
  omega

theorem call_native_from_no_fault (isOp : instr.op = .callNativeFrom) : NoRegisterFault step before := by
  have at_ := fetched.at_
  obtain ⟨dest, source⟩ := verified_call_native_from at_.verified (function_mem at_.known) at_.inside at_.found isOp
  have called : NoRegisterFault (callNative instr instr.b 1) (before.advanced frame below) :=
    call_native_no_fault fetched.sized (size_small fn) at_.running.natives (Or.inr source) fun _ _ _ _ _ _ _ => dest
  refine step_no_fault fetched ?_
  simp only [NoRegisterFault, execute, isOp]
  exact raises_bind called fun _ _ _ => raises_pure _

omit fetched in
theorem gather_nothing (vm : Vm) (base argc : UInt8) (none_ : argc = 0) (offset : Nat) : vm.gatherRegs base argc offset = .ok [] := by
  rw [none_]
  rfl

-- Without arguments nothing has looked at the destination before the store.
theorem native_result_outside (isOp : instr.op = .callNative) (noArgs : instr.b = 0)
    (allowed : checkNativeGate before.nativeGate before.natives instr.imm.toUInt32 = .ok ()) {native : NativeFn}
    (isNative : before.natives.get instr.imm.toUInt32 = some native) {value : Value}
    (returned : native (before.instructionsExecuted + 1) [] = .ok value) (outside : fn.numRegisters.toNat ≤ instr.a.toNat) :
    exec step before =
      (.error (.registerOutOfRange instr.a (UInt8.ofNat fn.numRegisters.toNat)), before.advanced frame below) := by
  have stored := set_reg_outside fetched.sized outside value
  rw [fetched.stepped]
  simp only [execute, isOp, callNative, exec_bind, exec_get]
  rw [show (before.advanced frame below).nativeGate = before.nativeGate from rfl,
    show (before.advanced frame below).natives = before.natives from rfl, allowed]
  simp only [exec_bind, exec_reading, gather_nothing _ _ _ noArgs, isNative]
  rw [show (before.advanced frame below).instructionsExecuted = before.instructionsExecuted + 1 from rfl, returned]
  simp only [stored]

theorem call_native_no_fault_iff (fetching : before.nextInstruction = some instr)
    (isOp : instr.op = .callNative) : NoRegisterFault step before ↔ before.NativeResultFits := by
  have at_ := fetched.at_
  have size : frame.registers.length = fn.numRegisters.toNat := at_.size
  have window := verified_call_native at_.verified (function_mem at_.known) at_.inside at_.found isOp
  constructor
  · intro noFault top rest other native value frames sameInstr _ noArgs allowed isNative returned
    cases fetching.symm.trans sameInstr
    cases fetched.frames.symm.trans frames
    by_contra outside
    rw [size, Nat.not_lt] at outside
    cases noFault _ _ (native_result_outside fetched isOp noArgs allowed isNative returned outside)
  · intro fits
    have called : NoRegisterFault (callNative instr instr.a instr.b) (before.advanced frame below) := by
      refine call_native_no_fault fetched.sized (size_small fn) at_.running.natives window ?_
      intro args native value gathered allowed isNative returned
      by_cases noArgs : instr.b = 0
      · rw [gather_nothing _ _ _ noArgs] at gathered
        cases gathered
        exact size ▸ fits frame below instr native value fetched.frames fetching isOp noArgs allowed isNative returned
      · have some_ : instr.b.toNat ≠ 0 := fun zero => noArgs (UInt8.toNat_inj.mp zero)
        have inside := window.resolve_left some_
        omega
    refine step_no_fault fetched ?_
    simp only [NoRegisterFault, execute, isOp]
    exact raises_bind called fun _ _ _ => raises_pure _

omit fetched

theorem native_result_fits_of_other (fetching : before.nextInstruction = some instr) (isOp : instr.op ≠ .callNative) :
    before.NativeResultFits := by
  intro _ _ other _ _ _ sameInstr isNative
  cases fetching.symm.trans sameInstr
  exact absurd isNative isOp

theorem windows_hold_iff (verified : Verified chunk) (running : Running chunk before.shape) :
    before.WindowsHold ↔ before.NativeResultFits := by
  unfold WindowsHold
  cases fetching : before.nextInstruction with
  | none =>
    refine iff_of_true (implicit_return_no_fault running fetching) ?_
    intro _ _ other _ _ _ sameInstr
    cases fetching.symm.trans sameInstr
  | some instr =>
    obtain ⟨frame, below, fn, fetched⟩ := step_fetched verified running fetching
    have other := @native_result_fits_of_other before instr fetching
    dsimp only
    cases isOp : instr.op
    case call =>
      obtain ⟨target, fits⟩ := fetched_call fetched (Or.inl isOp)
      refine iff_of_true (step_no_fault fetched ?_) (other (by rw [isOp]; decide))
      simp only [NoRegisterFault, execute, isOp]
      exact raises_bind (call_no_fault fits) fun _ _ _ => raises_pure _
    case tailCall =>
      obtain ⟨target, fits⟩ := fetched_call fetched (Or.inr isOp)
      refine iff_of_true (step_no_fault fetched ?_) (other (by rw [isOp]; decide))
      simp only [NoRegisterFault, execute, isOp]
      exact raises_bind (tail_call_no_fault fits) fun _ _ _ => raises_pure _
    case callNative => exact call_native_no_fault_iff fetched fetching isOp
    case callNativeFrom => exact iff_of_true (call_native_from_no_fault fetched isOp) (other (by rw [isOp]; decide))
    case spawn => exact iff_of_true (spawn_windows fetched isOp) (other (by rw [isOp]; decide))
    case startChild => exact iff_of_true (start_child_windows fetched isOp) (other (by rw [isOp]; decide))
    case ret => exact iff_of_true (fun _ _ _ => return_fault fetched isOp) (other (by rw [isOp]; decide))
    case askTimeout => exact iff_of_true (fun _ _ _ => ask_timeout_fault fetched isOp) (other (by rw [isOp]; decide))
    all_goals exact iff_of_true trivial (other (by rw [isOp]; decide))

end Step

end Vm

namespace Flow

theorem verified_windows_hold_iff (layout : Layout) (chunk : Chunk) (config : VerifyConfig)
    (accepted : verifyWith chunk config = .ok ()) (natives : NativeTable) (contract : natives.ReportsOnly)
    (nativeGate : NativeGate) (function : UInt32) (known : function.toNat < chunk.functions.length) (args : List Value)
    (events : List FlowEvent) :
    (∀ before ∈ (start layout chunk natives nativeGate function args).steps events, before.WindowsHold) ↔
      ∀ before ∈ (start layout chunk natives nativeGate function args).steps events, before.NativeResultFits := by
  have verified := verify_with_verified chunk config accepted
  have running := steps_running verified _ (start_live layout verified natives contract nativeGate function known args) events
  exact forall₂_congr fun before member => Vm.windows_hold_iff verified (running before member)

def ticking (dest : UInt8) : Chunk :=
  { name := "ticking", constants := [],
    code := [{ op := .callNative, a := dest, b := 0, c := 0, imm := 0 }, { op := .ret, a := 0, b := 0, c := 0, imm := 0 }],
    functions := [{ name := "main", entry := 0, arity := 0, numRegisters := 1 }] }

def tickTable : NativeTable := ⟨[some ("tick", fun _ _ => .ok .unit)]⟩

def tickGate : NativeGate := ⟨true, .full 1, 0, 0, 0, 0⟩

theorem tick_reports : tickTable.ReportsOnly := by
  intro index native found instant args fault failed
  have isTick : native = fun _ _ => .ok .unit := by
    obtain ⟨entry, listed, rfl⟩ := Option.map_eq_some_iff.mp found
    have member := mem_of_getElem? (Option.join_eq_some_iff.mp listed)
    cases mem_singleton.mp member
    rfl
  rw [isTick] at failed
  cases failed

theorem ticking_windows_hold :
    (∃ vm, (start .word (ticking 0) tickTable tickGate 0 []).play [.slice 4] = .completed .unit vm) ∧
      ∀ before ∈ (start .word (ticking 0) tickTable tickGate 0 []).steps [.slice 4], before.WindowsHold := by
  refine ⟨⟨_, rfl⟩, ?_⟩
  refine (verified_windows_hold_iff .word (ticking 0) ⟨.untrusted⟩ rfl tickTable tick_reports tickGate 0 (by decide)
    [] [.slice 4]).mpr ?_
  refine forall_mem_cons.mpr ⟨?_, forall_mem_cons.mpr ⟨?_, forall_mem_nil _⟩⟩
  · intro frame below instr native value frames fetching _ _ _ _ _
    cases frames
    cases fetching
    decide
  · intro frame below instr native value frames fetching isOp
    cases fetching
    cases isOp

theorem ticking_outside :
    verifyWith (ticking 5) ⟨.untrusted⟩ = .ok () ∧
      ∃ vm, (start .word (ticking 5) tickTable tickGate 0 []).play [.slice 4] =
        .trapped (.registerOutOfRange 5 1) vm ∧
      ∃ before ∈ (start .word (ticking 5) tickTable tickGate 0 []).steps [.slice 4], ¬ before.WindowsHold := by
  refine ⟨rfl, _, rfl, _, mem_cons_self, fun holds => ?_⟩
  cases holds _ _ rfl

end Flow

end Byteflow
