import Byteflow.InterpreterQuiet

namespace Byteflow

open Exec

def Shape.withFrames (shape : Shape) (frames : List FrameShape) : Shape := { shape with frames := frames }

namespace Vm

def Stops (shapes : List Shape) (fault : Fault) (vm : Vm) : Prop :=
  fault.isStructural = false ∧ vm.shape ∈ shapes

variable {shape : Shape} {vm : Vm}

theorem steady_triple {α : Type} {S : Shape → Prop} {m : VmM α} (steady : Steady S m) (holds : S shape)
    (shapes : List Shape) (member : shape ∈ shapes) :
    Triple (fun vm => vm.shape = shape) m (fun _ vm => vm.shape = shape) (Stops shapes) :=
  triple_consequence (steady shape holds) (fun _ same => same) (fun _ _ same => same)
    (fun _ _ stopped => ⟨stopped.1, stopped.2 ▸ member⟩)

theorem shape_frames (same : vm.shape = shape) : vm.frames.map Frame.shape = shape.frames :=
  congrArg Shape.frames same

theorem shape_chunk (same : vm.shape = shape) : vm.chunk = shape.chunk :=
  congrArg Shape.chunk same

theorem shape_cons {top : FrameShape} {below : List FrameShape} (same : vm.shape = shape)
    (frames : shape.frames = top :: below) :
    ∃ frame rest, vm.frames = frame :: rest ∧ frame.shape = top ∧ rest.map Frame.shape = below := by
  have mapped := (shape_frames same).trans frames
  cases listed : vm.frames with
  | nil => simp [listed] at mapped
  | cons frame rest =>
    rw [listed, List.map_cons, List.cons.injEq] at mapped
    exact ⟨frame, rest, rfl, mapped.1, mapped.2⟩

theorem shape_with_frames (same : vm.shape = shape) (frames : List Frame) :
    { vm with frames := frames }.shape = shape.withFrames (frames.map Frame.shape) := by
  subst same
  rfl

section Stack

variable {shape : Shape} {top : FrameShape} {below : List FrameShape}

theorem apply_relative_jump_triple (imm : Int32) (frames : shape.frames = top :: below)
    (inside : 0 ≤ (top.pc : Int) + imm.toInt ∧ ((top.pc : Int) + imm.toInt).toNat ≤ shape.chunk.code.length) :
    Triple (fun vm => vm.shape = shape) (applyRelativeJump imm)
      (fun _ vm => vm.shape = shape.withFrames ({ top with pc := ((top.pc : Int) + imm.toInt).toNat } :: below))
      (Stops []) := by
  intro vm same
  obtain ⟨frame, rest, listed, rfl, rfl⟩ := shape_cons same frames
  have active : vm.current = .ok frame := by simp [current, listed]
  have inRange : ¬ (((frame.pc : Int) + imm.toInt < 0) ∨
      ((frame.pc : Int) + imm.toInt).toNat > vm.chunk.code.length) := by
    rw [shape_chunk same]
    exact fun outside => outside.elim (fun low => absurd inside.1 (not_le.mpr low))
      (fun high => absurd inside.2 (not_le.mpr high))
  rw [applyRelativeJump, exec_get_bind]
  rw [exec_bind, exec_reading, active]
  dsimp only
  rw [if_neg inRange]
  change (setTop { frame with pc := _ } vm).shape = _
  rw [setTop, shape_with_frames same, listed]
  rfl

def entryShape (function : UInt32) (fn : FunctionDef) (destReg : Option UInt8) : FrameShape :=
  ⟨function, fn.entry.toNat, fn.numRegisters.toNat, destReg⟩

theorem entry_frame_shape (function : UInt32) (fn : FunctionDef) (destReg : Option UInt8) :
    Frame.shape { Frame.new function fn.numRegisters destReg with pc := fn.entry.toNat } =
      entryShape function fn destReg := by
  simp [Frame.new, Frame.shape, entryShape]

theorem rollback_still {α : Type} (charged : Nat) (fault : Fault) (tame : fault.isStructural = false) :
    Still (rollback charged fault : VmM α) :=
  steady_ite _ (fun _ => steady_bind (release_still charged) fun _ => steady_throw fault tame)
    fun _ => steady_throw fault tame

theorem charge_arg_triple (charged : Nat) (frame : Frame) (value : Value) (shapes : List Shape) (member : shape ∈ shapes) :
    Triple (fun vm => vm.shape = shape) (chargeArg charged frame value)
      (fun next vm => next.1.shape = frame.shape ∧ vm.shape = shape) (Stops shapes) := by
  have still : ∀ {α : Type} {m : VmM α}, Still m →
      Triple (fun vm => vm.shape = shape) m (fun _ vm => vm.shape = shape) (Stops shapes) :=
    fun quiet => steady_triple quiet trivial shapes member
  have fails : Triple (fun vm => vm.shape = shape) (throw heapChargeDoesNotFit : VmM (Frame × Nat))
      (fun next vm => next.1.shape = frame.shape ∧ vm.shape = shape) (Stops shapes) :=
    triple_throw _ fun _ same => ⟨rfl, same ▸ member⟩
  refine triple_bind (still get_still) fun vm => ?_
  refine triple_bind (still (pure_reading_steady _ (heap_charge_of_tame _ _))) fun bytes => ?_
  refine triple_ite _ (fun _ => ?_) fun _ => triple_pure _ fun _ same => ⟨rfl, same⟩
  refine triple_bind (still (steady_on_error (charge_still bytes) (rollback_still charged))) fun _ => ?_
  cases vm.layout.checkedAdd charged bytes with
  | none =>
    exact triple_bind (still (release_still charged)) fun _ =>
      triple_bind (still (release_still bytes)) fun _ => fails
  | some next =>
    dsimp only
    cases added : frame.tryAddHeapCharge vm.layout bytes with
    | none => exact triple_bind (still (release_still next)) fun _ => fails
    | some grown =>
      exact triple_pure _ fun _ same => ⟨try_add_heap_charge_shape _ _ _ _ added, same⟩

theorem load_frame_args_charged_triple (args : List Value) (shapes : List Shape) (member : shape ∈ shapes)
    (i charged : Nat) (frame : Frame) :
    Triple (fun vm => vm.shape = shape) (loadFrameArgsChargedFrom i charged frame args)
      (fun next vm => next.shape = frame.shape ∧ vm.shape = shape) (Stops shapes) := by
  induction args generalizing i charged frame with
  | nil => exact triple_pure frame fun _ same => ⟨rfl, same⟩
  | cons value rest ih =>
    refine triple_bind (charge_arg_triple charged frame value shapes member) fun next => ?_
    obtain ⟨grown, total⟩ := next
    refine triple_fact fun same => triple_ite _ (fun _ => ?_) fun _ => ?_
    · have kept : (grown.write i value).shape = frame.shape := (write_shape grown i value).trans same
      rw [← kept]
      exact ih (i + 1) total (grown.write i value)
    · have fails : ∀ vm : Vm, vm.shape = shape →
          Stops shapes (.registerOutOfRange (UInt8.ofNat i) grown.frameSize) vm :=
        fun vm same => ⟨rfl, same ▸ member⟩
      refine triple_ite _ (fun _ => ?_) fun _ => triple_throw _ fails
      exact triple_bind (steady_triple (release_still total) trivial shapes member)
        fun _ => triple_throw _ fails

def WindowFits (instr : Instruction) : Prop := instr.b.toNat = 0 ∨ instr.a.toNat + instr.b.toNat ≤ 256

theorem gather_args_triple (instr : Instruction) (window : WindowFits instr) (ready : shape.Ready)
    (shapes : List Shape) (member : shape ∈ shapes) :
    Triple (fun vm => vm.shape = shape) (reading (gatherRegs instr.a instr.b 0)) (fun _ vm => vm.shape = shape)
      (Stops shapes) := by
  refine steady_triple (steady_reading _ fun vm ready => ?_) ready shapes member
  exact gather_regs_tame instr.a instr.b 0 vm ready (by simpa [WindowFits] using window)

theorem enter_triple (function : UInt32) (fn : FunctionDef) (destReg : Option UInt8) (args : List Value)
    (stack : List FrameShape) (shapes : List Shape) (member : shape.withFrames stack ∈ shapes) :
    Triple (fun vm => vm.shape = shape.withFrames stack)
      (do pushFrame (← loadFrameArgsCharged
        { Frame.new function fn.numRegisters destReg with pc := fn.entry.toNat } args fn.arity))
      (fun _ vm => vm.shape = shape.withFrames (entryShape function fn destReg :: stack)) (Stops shapes) := by
  refine triple_bind (load_frame_args_charged_triple _ shapes member 0 0 _) fun frame => ?_
  refine triple_fact fun entered => triple_modify _ _ fun vm shaped => ?_
  rw [shape_with_frames shaped, List.map_cons, shape_frames shaped, entered, entry_frame_shape]
  rfl

theorem callee_triple (instr : Instruction) (fn : FunctionDef)
    (found : shape.chunk.function instr.imm.toUInt32 = some fn) (arity : instr.b = fn.arity) (shapes : List Shape) :
    Triple (fun vm => vm.shape = shape) (reading (callee instr.imm.toUInt32 instr.b))
      (fun target vm => target = fn ∧ vm.shape = shape) (Stops shapes) := by
  have known : ∀ vm : Vm, vm.shape = shape → callee instr.imm.toUInt32 instr.b vm = .ok fn := by
    intro vm same
    simp [callee, shape_chunk same, found, arity]
  refine triple_reading _ (fun vm target same result => ⟨?_, same⟩) (fun vm fault same result => ?_)
  · rw [known vm same] at result
    cases result
    rfl
  · rw [known vm same] at result
    cases result

theorem call_triple (instr : Instruction) (fn : FunctionDef) (ready : shape.Ready)
    (found : shape.chunk.function instr.imm.toUInt32 = some fn) (arity : instr.b = fn.arity)
    (window : WindowFits instr) :
    Triple (fun vm => vm.shape = shape) (call instr)
      (fun _ vm => shape.frames.length < MAX_CALL_DEPTH ∧
        vm.shape = shape.withFrames (entryShape instr.imm.toUInt32 fn (some instr.a) :: shape.frames))
      (Stops [shape]) := by
  have member : shape ∈ [shape] := List.mem_singleton.mpr rfl
  refine triple_get_bind fun start shaped => ?_
  have depth : start.frames.length = shape.frames.length := by rw [← shape_frames shaped, List.length_map]
  refine triple_ite _ (fun _ => ?_) fun shallow => ?_
  · exact triple_throw _ fun vm same => ⟨rfl, by rw [same, shaped]; exact member⟩
  · have started : ∀ vm : Vm, vm = start → vm.shape = shape := fun vm same => same ▸ shaped
    have room : shape.frames.length < MAX_CALL_DEPTH := by
      rw [← depth]
      exact Nat.not_le.mp shallow
    refine triple_consequence (triple_bind (callee_triple instr fn found arity [shape]) fun target =>
      triple_fact fun same => ?_) started (fun _ vm post => ⟨room, post⟩) fun _ _ stopped => stopped
    subst same
    exact triple_bind (gather_args_triple instr window ready [shape] member) fun args =>
      enter_triple instr.imm.toUInt32 target (some instr.a) args shape.frames [shape] member

theorem tail_call_triple (instr : Instruction) (fn : FunctionDef) (ready : shape.Ready)
    (frames : shape.frames = top :: below) (found : shape.chunk.function instr.imm.toUInt32 = some fn)
    (arity : instr.b = fn.arity) (window : WindowFits instr) :
    Triple (fun vm => vm.shape = shape) (tailCall instr)
      (fun _ vm => vm.shape = shape.withFrames (entryShape instr.imm.toUInt32 fn top.destReg :: below))
      (Stops [shape, shape.withFrames below]) := by
  have first : shape ∈ [shape, shape.withFrames below] := List.mem_cons_self
  have dropped : shape.withFrames below ∈ [shape, shape.withFrames below] := by simp
  refine triple_bind (callee_triple instr fn found arity _) fun target => triple_fact fun same => ?_
  subst same
  refine triple_bind (gather_args_triple instr window ready _ first) fun args => ?_
  have finishing : Triple (fun vm => vm.shape = shape) (reading current)
      (fun finished vm => finished.destReg = top.destReg ∧ vm.shape = shape)
      (Stops [shape, shape.withFrames below]) := by
    refine triple_reading _ (fun vm finished same result => ⟨?_, same⟩) fun vm fault same result => ?_
    · obtain ⟨frame, rest, listed, rfl, _⟩ := shape_cons same frames
      simp only [current, listed, Except.ok.injEq] at result
      rw [← result]
      rfl
    · obtain ⟨frame, rest, listed, _⟩ := shape_cons same frames
      simp [current, listed] at result
  refine triple_bind finishing fun finished => triple_fact fun dest => ?_
  have drop : Triple (fun vm => vm.shape = shape) (modify fun vm : Vm => { vm with frames := vm.frames.tail })
      (fun _ vm => vm.shape = shape.withFrames below) (Stops [shape, shape.withFrames below]) := by
    refine triple_modify _ _ fun vm same => ?_
    rw [shape_with_frames same, List.map_tail, shape_frames same, frames]
    rfl
  refine triple_bind drop fun _ => ?_
  refine triple_bind (steady_triple (release_still _) trivial _ dropped) fun _ => ?_
  rw [dest]
  exact enter_triple instr.imm.toUInt32 target top.destReg args below _ dropped

theorem pop_frame_triple (value : Value) (natives : shape.natives.ReportsOnly) (frames : shape.frames = top :: below)
    (returns : top.destReg = none ∨ below ≠ []) :
    Triple (fun vm => vm.shape = shape) (popFrame value)
      (fun result vm => vm.shape = shape.withFrames below ∧
        (top.destReg = none ∧ result = some (.complete value) ∨ below ≠ [] ∧ result = none))
      (Stops [shape, shape.withFrames below]) := by
  have first : shape ∈ [shape, shape.withFrames below] := List.mem_cons_self
  have dropped : shape.withFrames below ∈ [shape, shape.withFrames below] := by simp
  refine triple_get_bind fun start shaped => ?_
  obtain ⟨finished, rest, listed, rfl, rfl⟩ := shape_cons shaped frames
  have drop : Triple (fun vm => vm.shape = shape) (modify fun vm : Vm => { vm with frames := rest })
      (fun _ vm => vm.shape = shape.withFrames (rest.map Frame.shape))
      (Stops [shape, shape.withFrames (rest.map Frame.shape)]) :=
    triple_modify _ _ fun vm same => shape_with_frames same rest
  have started : ∀ vm : Vm, vm = start → vm.shape = shape := fun vm same => same ▸ shaped
  refine triple_consequence ?_ started (fun _ _ post => post) fun _ _ stopped => stopped
  rw [listed]
  dsimp only
  cases dest : finished.destReg with
  | some reg =>
    have caller : rest.map Frame.shape ≠ [] := returns.resolve_left (by simp [Frame.shape, dest])
    refine triple_bind drop fun _ => ?_
    refine triple_bind (steady_triple (release_still _) trivial _ dropped) fun _ => ?_
    have ready : (shape.withFrames (rest.map Frame.shape)).Ready := ⟨caller, natives⟩
    have stored := steady_triple (set_reg_quiet reg value) ready _ dropped
    exact triple_bind stored fun _ => triple_pure _ fun vm same => ⟨same, Or.inr ⟨caller, rfl⟩⟩
  | none =>
    have kept : Still (reading fun _ => heapChargeOf start.layout value) :=
      pure_reading_steady _ (heap_charge_of_tame start.layout value)
    have charged := steady_triple kept trivial _ first
    refine triple_bind charged fun keep => triple_bind drop fun _ => ?_
    refine triple_bind (steady_triple (release_still _) trivial _ dropped) fun _ => ?_
    exact triple_pure _ fun vm same => ⟨same, Or.inl ⟨by simp [Frame.shape, dest], rfl⟩⟩

end Stack

end Vm

end Byteflow
