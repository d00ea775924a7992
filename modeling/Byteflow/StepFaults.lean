import Byteflow.FlowSound

namespace Byteflow

open List Exec

variable {fault : Fault} {value : Value}

theorem require_int_error (failed : requireInt value = .error fault) : ∃ got, fault = .typeMismatch "int" got := by
  cases value with
  | int n => cases failed
  | _ =>
    cases failed
    exact ⟨_, rfl⟩

theorem ranged_error {α : Type} {fits : Int64 → Prop} [DecidablePred fits] {read : Int64 → α} {wrong : Fault}
    (failed : (requireInt value >>= fun n => if fits n then .ok (read n) else .error wrong) = .error fault) :
    (∃ got, fault = .typeMismatch "int" got) ∨ fault = wrong := by
  rcases (except_bind_error_iff _ _ _).mp failed with typed | ⟨n, _, ranged⟩
  · exact Or.inl (require_int_error typed)
  · split at ranged
    · cases ranged
    · cases ranged
      exact Or.inr rfl

theorem cap_error (failed : (match value.asCap with
      | some id => .ok id
      | none => .error (.typeMismatch "cap" value.typeName) : Except Fault CapId) = .error fault) :
    fault = .typeMismatch "cap" value.typeName := by
  split at failed
  · cases failed
  · cases failed
    rfl

theorem message_error (failed : (match value.asMessage with
      | some _ => .ok value
      | none => .error (.typeMismatch "message" value.typeName) : Except Fault Value) = .error fault) :
    fault = .typeMismatch "message" value.typeName := by
  split at failed
  · cases failed
  · cases failed
    rfl

namespace Vm

def Sized (vm : Vm) (size : Nat) : Prop := ∃ frame below, vm.frames = frame :: below ∧ frame.registers.length = size

-- What a store into a register of a frame of this size can stop with.
def StoreFault (reg : UInt8) (size : Nat) (fault : Fault) : Prop :=
  fault.isQuota = true ∨ fault = .registerOutOfRange reg (UInt8.ofNat size) ∧ size ≤ reg.toNat

section Registers

variable {vm : Vm} {size : Nat} {reg : UInt8}

theorem sized_current (sized : vm.Sized size) : ∃ frame, vm.current = .ok frame ∧ frame.registers.length = size := by
  obtain ⟨frame, below, frames, length⟩ := sized
  exact ⟨frame, by rw [current, frames], length⟩

theorem get_reg_cases (sized : vm.Sized size) (reg : UInt8) :
    (reg.toNat < size ∧ ∃ value, vm.getReg reg = .ok value) ∨
      (size ≤ reg.toNat ∧ vm.getReg reg = .error (.registerOutOfRange reg (UInt8.ofNat size))) := by
  obtain ⟨frame, isFrame, rfl⟩ := sized_current sized
  rw [getReg, isFrame]
  by_cases inside : reg.toNat < frame.registers.length
  · exact Or.inl ⟨inside, _, by simp only [bind, Except.bind, getElem?_eq_getElem inside]; rfl⟩
  · have outside := Nat.not_lt.mp inside
    exact Or.inr ⟨outside, by simp only [bind, Except.bind, getElem?_eq_none outside]; rfl⟩

theorem get_reg_ok (sized : vm.Sized size) (inside : reg.toNat < size) : ∃ value, vm.getReg reg = .ok value := by
  rcases get_reg_cases sized reg with ⟨_, found⟩ | ⟨outside, _⟩
  · exact found
  · exact absurd inside (Nat.not_lt.mpr outside)

theorem get_reg_error (sized : vm.Sized size) {fault : Fault} (failed : vm.getReg reg = .error fault) :
    fault = .registerOutOfRange reg (UInt8.ofNat size) ∧ size ≤ reg.toNat := by
  rcases get_reg_cases sized reg with ⟨_, value, found⟩ | ⟨outside, error⟩
  · rw [found] at failed
    cases failed
  · rw [error] at failed
    cases failed
    exact ⟨rfl, outside⟩

theorem read_error {α : Type} {allowed : Fault → Prop} {f : Value → Except Fault α}
    (register : ∀ fault, vm.getReg reg = .error fault → allowed fault)
    (typed : ∀ value fault, f value = .error fault → allowed fault) (fault : Fault)
    (failed : (vm.getReg reg >>= f) = .error fault) : allowed fault := by
  rcases (except_bind_error_iff _ _ _).mp failed with missing | ⟨value, _, wrong⟩
  · exact register fault missing
  · exact typed value fault wrong

theorem gather_regs_ok (sized : vm.Sized size) {base argc : UInt8} {offset : Nat} (small : size ≤ 255)
    (window : argc.toNat = 0 ∨ base.toNat + offset + argc.toNat ≤ size) :
    ∃ args, vm.gatherRegs base argc offset = .ok args := by
  refine mapM_ok_iff.mpr fun i member => ?_
  have below := mem_range.mp member
  have fits : base.toNat + (offset + i) < 256 := by omega
  have index : (UInt8.ofNat (base.toNat + (offset + i))).toNat = base.toNat + (offset + i) := UInt8.toNat_ofNat_of_lt' fits
  rw [regAt, if_pos fits]
  exact get_reg_ok sized (by omega)

theorem charge_raises (bytes : Nat) (vm : Vm) : Raises (fun fault => fault.isQuota = true) (charge bytes) vm := by
  refine raises_get_bind ?_
  cases vm.quota with
  | none => exact raises_pure _
  | some quota =>
    dsimp only
    cases charged : chargePair vm.layout quota vm.memory bytes with
    | error fault => exact raises_throw _ (charge_pair_charged _ _ _ _ fault charged)
    | ok pair => exact raises_set _

theorem set_reg_raises (sized : vm.Sized size) (reg : UInt8) (value : Value) :
    Raises (StoreFault reg size) (setReg reg value) vm := by
  obtain ⟨frame, isFrame, length⟩ := sized_current sized
  refine raises_reading_bind (fun fault failed => ?_) fun top _ => ?_
  · rw [isFrame] at failed
    cases failed
  refine raises_reading_bind (fun fault failed => Or.inr (get_reg_error sized failed)) fun old _ => ?_
  refine raises_ite _ (fun _ => raises_modify _) fun _ => raises_get_bind ?_
  refine raises_reading_bind (fun fault failed => Or.inl (heap_charge_of_charged _ _ fault failed)) fun oldBytes _ => ?_
  refine raises_reading_bind (fun fault failed => Or.inl (heap_charge_of_charged _ _ fault failed)) fun newBytes _ => ?_
  refine raises_ite _ (fun _ => ?_) fun _ => raises_ite _ (fun _ => ?_) fun _ => raises_modify _
  · refine raises_bind (raises_mono (charge_raises _ _) fun _ quota => Or.inl quota) fun _ charged _ => ?_
    cases top.tryAddHeapCharge vm.layout (newBytes - oldBytes) with
    | none => exact raises_bind (raises_modify _) fun _ _ _ => raises_throw _ (Or.inl rfl)
    | some grown => exact raises_modify _
  · exact raises_bind (raises_modify _) fun _ _ _ => raises_modify _

theorem set_reg_outside (sized : vm.Sized size) (outside : size ≤ reg.toNat) (value : Value) :
    exec (setReg reg value) vm = (.error (.registerOutOfRange reg (UInt8.ofNat size)), vm) := by
  obtain ⟨frame, isFrame, length⟩ := sized_current sized
  rcases get_reg_cases sized reg with ⟨inside, _⟩ | ⟨_, failed⟩
  · exact absurd inside (Nat.not_lt.mpr outside)
  · rw [setReg, exec_bind_ok _ _ vm vm frame (by rw [exec_reading, isFrame])]
    rw [exec_bind, exec_reading, failed]

end Registers

section Frames

variable {vm : Vm}

theorem release_frames {bytes : Nat} {result : Unit} {after : Vm} (ran : exec (release bytes) vm = (.ok result, after)) :
    after.frames = vm.frames := by
  obtain ⟨_, rfl⟩ := Prod.mk.inj ran
  dsimp only
  cases vm.quota with
  | none | some => rfl

theorem rollback_raises {α : Type} (charged : Nat) (fault : Fault) (quota : fault.isQuota = true) (vm : Vm) :
    Raises (fun fault => fault.isQuota = true) (rollback charged fault : VmM α) vm :=
  raises_ite _ (fun _ => raises_bind (raises_modify _) fun _ _ _ => raises_throw fault quota)
    fun _ => raises_throw fault quota

theorem charge_arg_raises (charged : Nat) (frame : Frame) (value : Value) (vm : Vm) :
    Raises (fun fault => fault.isQuota = true) (chargeArg charged frame value) vm := by
  refine raises_get_bind (raises_reading_bind (heap_charge_of_charged _ _) fun bytes _ => ?_)
  refine raises_ite _ (fun _ => ?_) fun _ => raises_pure _
  refine raises_bind (raises_on_error fun fault after failed => ?_) fun _ _ _ => ?_
  · exact rollback_raises charged fault (charge_raises bytes vm fault after failed) after
  cases vm.layout.checkedAdd charged bytes with
  | none =>
    refine raises_bind (raises_modify _) fun _ _ _ => raises_bind (raises_modify _) fun _ _ _ => ?_
    exact raises_throw _ rfl
  | some next =>
    dsimp only
    cases frame.tryAddHeapCharge vm.layout bytes with
    | none => exact raises_bind (raises_modify _) fun _ _ _ => raises_throw _ rfl
    | some grown => exact raises_pure _

theorem charge_arg_length {charged : Nat} {frame : Frame} {value : Value} {next : Frame × Nat} {after : Vm}
    (ran : exec (chargeArg charged frame value) vm = (.ok next, after)) :
    next.1.registers.length = frame.registers.length := by
  have kept := charge_arg_triple charged frame value [vm.shape] (mem_singleton.mpr rfl) vm rfl
  rw [ran] at kept
  exact congrArg FrameShape.size kept.1

theorem load_frame_args_raises (args : List Value) (i charged : Nat) (frame : Frame) (vm : Vm)
    (room : i + args.length ≤ frame.registers.length) :
    Raises (fun fault => fault.isQuota = true) (loadFrameArgsChargedFrom i charged frame args) vm := by
  induction args generalizing i charged frame vm with
  | nil => exact raises_pure _
  | cons value rest ih =>
    rw [length_cons] at room
    refine raises_bind (charge_arg_raises charged frame value vm) fun next after ran => ?_
    have length := charge_arg_length ran
    obtain ⟨grown, total⟩ := next
    dsimp only at length ⊢
    refine raises_ite _ (fun _ => ih (i + 1) total (grown.write i value) after ?_) fun full => ?_
    · rw [Frame.write, length_set, length]
      omega
    · rw [length] at full
      omega

theorem pop_frame_raises {finished : Frame} {below : List Frame} (value : Value) (frames : vm.frames = finished :: below)
    (returns : ∀ dest, finished.destReg = some dest → ∃ caller rest, below = caller :: rest ∧ dest.toNat < caller.registers.length) :
    Raises (fun fault => fault.isQuota = true) (popFrame value) vm := by
  refine raises_get_bind ?_
  rw [frames]
  dsimp only
  cases isDest : finished.destReg with
  | none =>
    refine raises_reading_bind (heap_charge_of_charged _ _) fun keep _ => ?_
    refine raises_bind (raises_modify _) fun _ _ _ => raises_bind (raises_modify _) fun _ _ _ => ?_
    exact raises_pure _
  | some dest =>
    obtain ⟨caller, rest, isBelow, inside⟩ := returns dest isDest
    refine raises_bind (raises_modify _) fun _ popped dropped => ?_
    refine raises_bind (raises_modify _) fun _ released given => ?_
    have sized : released.Sized caller.registers.length := by
      obtain ⟨_, rfl⟩ := Prod.mk.inj dropped
      exact ⟨caller, rest, (release_frames given).trans isBelow, rfl⟩
    refine raises_bind (raises_mono (set_reg_raises sized dest value) fun fault store => ?_)
      fun _ _ _ => raises_pure _
    exact store.resolve_right fun outside => absurd inside (Nat.not_lt.mpr outside.2)

end Frames

section Running

variable {chunk : Chunk}

theorem Fetched.sized {before : Vm} {frame : Frame} {below : List Frame} {fn : FunctionDef} {instr : Instruction}
    (fetched : Fetched chunk before frame below fn instr) : (before.advanced frame below).Sized fn.numRegisters.toNat :=
  ⟨_, _, rfl, fetched.at_.size⟩

theorem step_running (verified : Verified chunk) {vm after : Vm} {result : Option VmResult} (running : Running chunk vm.shape)
    (stepped : exec step vm = (.ok result, after)) : Continues chunk result after := by
  by_cases fits : vm.ChildIndexFits
  · have ends := step_continues verified vm running fits
    rw [stepped] at ends
    exact ends
  · have ends := step_breaks verified vm running fits
    rw [stepped] at ends
    exact ends.elim

theorem slice_steps_running (verified : Verified chunk) (budget : Nat) (vm : Vm) (running : Running chunk vm.shape) :
    ∀ before ∈ sliceSteps budget vm, Running chunk before.shape := by
  induction budget generalizing vm with
  | zero => exact forall_mem_nil _
  | succ budget ih =>
    rw [sliceSteps]
    refine forall_mem_cons.mpr ⟨running, ?_⟩
    rcases stepped : exec step vm with ⟨fault | _ | result, next⟩
    · exact forall_mem_nil _
    · rcases step_running verified running stepped with going | ⟨_, value, done⟩
      · exact ih next going
      · cases done
    · exact forall_mem_nil _

end Running

end Vm

namespace Flow

variable {chunk : Chunk}

def Live (chunk : Chunk) (flow : Flow) : Prop := ∀ vm, flow = .running vm → Running chunk vm.shape

theorem handle_live (verified : Verified chunk) (flow : Flow) (live : flow.Live chunk) (event : FlowEvent) :
    (flow.handle event).Live chunk := by
  cases flow with
  | running vm =>
    intro after same
    rcases handle_ends verified (.running vm) (live vm rfl) event with ⟨_, safe⟩ | ⟨_, fault, _, trapped, _⟩
    · rw [same] at safe
      exact safe
    · cases trapped.symm.trans same
  | completed | trapped | rejected => exact live

theorem steps_running (verified : Verified chunk) (flow : Flow) (live : flow.Live chunk) (events : List FlowEvent) :
    ∀ before ∈ flow.steps events, Running chunk before.shape := by
  induction events generalizing flow with
  | nil => exact forall_mem_nil _
  | cons event rest ih =>
    rw [steps_cons]
    refine forall_mem_append.mpr ⟨?_, ih _ (handle_live verified flow live event)⟩
    cases flow with
    | running vm =>
      cases event with
      | slice budget =>
        simp only [steps, append_nil]
        exact Vm.slice_steps_running verified budget vm (live vm rfl)
      | deliver | environment => exact forall_mem_nil _
    | completed | trapped | rejected => exact forall_mem_nil _

theorem start_live (layout : Layout) (verified : Verified chunk) (natives : NativeTable) (contract : natives.ReportsOnly)
    (nativeGate : NativeGate) (function : UInt32) (known : function.toNat < chunk.functions.length) (args : List Value) :
    (start layout chunk natives nativeGate function args).Live chunk := by
  intro vm same
  have safe := start_safe layout chunk verified natives contract nativeGate function known args
  rw [same] at safe
  exact safe

end Flow

end Byteflow
