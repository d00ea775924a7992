import Byteflow.Soundness

namespace Byteflow

open List Exec

-- A flow as its owner sees it between slices. A flow whose machine could not
-- be built never ran.
inductive Flow where
  | running (vm : Vm)
  | completed (value : Value) (vm : Vm)
  | trapped (fault : Fault) (vm : Vm)
  | rejected (fault : Fault)

-- Between slices a value may be delivered, and the shared accounts and native
-- epochs may change under the flow.
inductive FlowEvent where
  | slice (budget : Nat)
  | deliver (destReg : UInt8) (value : Value)
  | environment (quota : Option FlowQuota) (memory : Option MemoryBudget) (nativeGate : NativeGate)

namespace Flow

def start (layout : Layout) (chunk : Chunk) (natives : NativeTable) (nativeGate : NativeGate) (function : UInt32)
    (args : List Value) : Flow :=
  match Vm.withNativeGate layout chunk natives nativeGate function args with
  | .ok vm => .running vm
  | .error fault => .rejected fault

def handle : Flow → FlowEvent → Flow
  | .running vm, .slice budget =>
    match vm.run budget with
    | (.error fault, vm) => .trapped fault vm
    | (.ok (.complete value), vm) => .completed value vm
    | (.ok _, vm) => .running vm
  | .running vm, .deliver destReg value =>
    match exec (Vm.resumeWith destReg value) vm with
    | (.error fault, vm) => .trapped fault vm
    | (.ok _, vm) => .running vm
  | .running vm, .environment quota memory nativeGate =>
    .running { vm with quota := quota, memory := memory, nativeGate := nativeGate }
  | ended, _ => ended

def play (flow : Flow) (events : List FlowEvent) : Flow := events.foldl handle flow

def steps : Flow → List FlowEvent → List Vm
  | _, [] => []
  | flow, event :: rest =>
    (match flow, event with
      | .running vm, .slice budget => vm.sliceSteps budget
      | _, _ => []) ++ steps (flow.handle event) rest

def Sound (chunk : Chunk) : Flow → Prop
  | .running vm => vm.shape.frames ≠ [] ∧ Resting chunk vm.shape
  | .completed _ vm => Resting chunk vm.shape
  | .trapped fault vm => fault.isStructural = false ∧ Resting chunk vm.shape
  | .rejected fault => fault.isStructural = false

def Safe (chunk : Chunk) : Flow → Prop
  | .running vm => Running chunk vm.shape
  | ended => Sound chunk ended

theorem safe_sound {chunk : Chunk} {flow : Flow} (safe : flow.Safe chunk) : flow.Sound chunk := by
  cases flow with
  | running vm => exact ⟨safe.active, stack_ok_weaken safe.toStackOk⟩
  | completed | trapped | rejected => exact safe

theorem load_frame_args_shape (args : List Value) (i : Nat) (frame : Frame) :
    match loadFrameArgsFrom i frame args with
    | .ok next => next.shape = frame.shape
    | .error fault => fault.isStructural = false := by
  induction args generalizing i frame with
  | nil => rfl
  | cons value rest ih =>
    rw [loadFrameArgsFrom]
    by_cases room : i < frame.registers.length
    · rw [if_pos room, ← Vm.write_shape frame i value]
      exact ih (i + 1) (frame.write i value)
    · rw [if_neg room]
      rfl

theorem start_safe (layout : Layout) (chunk : Chunk) (verified : Verified chunk) (natives : NativeTable)
    (contract : natives.ReportsOnly) (nativeGate : NativeGate) (function : UInt32)
    (known : function.toNat < chunk.functions.length) (args : List Value) :
    (start layout chunk natives nativeGate function args).Safe chunk := by
  obtain ⟨fn, found⟩ : ∃ fn, chunk.function function = some fn := ⟨_, getElem?_eq_getElem known⟩
  have loaded := load_frame_args_shape (args.take fn.arity.toNat) 0
    { Frame.new function fn.numRegisters none with pc := fn.entry.toNat }
  simp only [start, Vm.withNativeGate, found, loadFrameArgs]
  revert loaded
  cases loadFrameArgsFrom 0 { Frame.new function fn.numRegisters none with pc := fn.entry.toNat }
      (args.take fn.arity.toNat) with
  | error fault => exact fun tame => tame
  | ok frame =>
    intro same
    rw [Vm.entry_frame_shape] at same
    refine ⟨⟨rfl, ?_, ?_, ?_⟩, cons_ne_nil _ _, contract⟩
    · simp only [Vm.shape, map_cons, map_nil, mem_singleton]
      rintro other rfl
      exact same ▸ entry_standing verified found none
    · exact congrArg FrameShape.destReg same
    · change 1 ≤ 4096
      decide

section Run

variable {chunk : Chunk}

theorem deliver_safe (vm : Vm) (able : Running chunk vm.shape) (destReg : UInt8) (value : Value) :
    ((Flow.running vm).handle (.deliver destReg value)).Safe chunk := by
  have delivered := Vm.set_reg_quiet destReg value vm.shape (running_ready able) vm rfl
  simp only [handle, Vm.resumeWith]
  revert delivered
  rcases exec (Vm.setReg destReg value) vm with ⟨fault | _, next⟩
  · exact fun stopped => ⟨stopped.1, stopped.2 ▸ stack_ok_weaken able.toStackOk⟩
  · exact fun same => (same ▸ able : Running chunk next.shape)

theorem stopped_play (flow : Flow) (stopped : ∀ event, flow.handle event = flow) (events : List FlowEvent) :
    flow.play events = flow := by
  induction events with
  | nil => rfl
  | cons event rest ih =>
    rw [play, foldl_cons, stopped event]
    exact ih

theorem steps_cons (flow : Flow) (event : FlowEvent) (rest : List FlowEvent) :
    flow.steps (event :: rest) = flow.steps [event] ++ (flow.handle event).steps rest := by
  simp [steps]

theorem handle_ends (verified : Verified chunk) (flow : Flow) (safe : flow.Safe chunk) (event : FlowEvent) :
    (∀ before ∈ flow.steps [event], before.ChildIndexFits) ∧ (flow.handle event).Safe chunk ∨
      (¬ ∀ before ∈ flow.steps [event], before.ChildIndexFits) ∧
        ∃ fault vm, flow.handle event = .trapped fault vm ∧ fault.isStructural = true := by
  cases flow with
  | running vm =>
    cases event with
    | slice budget =>
      rw [steps, steps, append_nil]
      refine (Vm.run_ends verified budget vm safe).imp (And.imp_right fun ended => ?_) (And.imp_right ?_)
      · simp only [handle]
        revert ended
        rcases vm.run budget with ⟨fault | result, next⟩
        · exact id
        · cases result <;> exact id
      · rintro ⟨fault, after, ran, structural⟩
        exact ⟨fault, after, by simp only [handle, ran], structural⟩
    | deliver destReg value => exact Or.inl ⟨forall_mem_nil _, deliver_safe vm safe destReg value⟩
    | environment quota memory nativeGate => exact Or.inl ⟨forall_mem_nil _, safe⟩
  | completed | trapped | rejected => exact Or.inl ⟨forall_mem_nil _, safe⟩

theorem play_sound_iff (verified : Verified chunk) (flow : Flow) (safe : flow.Safe chunk) (events : List FlowEvent) :
    (flow.play events).Sound chunk ↔ ∀ before ∈ flow.steps events, before.ChildIndexFits := by
  induction events generalizing flow with
  | nil =>
    refine ⟨fun _ before member => ?_, fun _ => safe_sound safe⟩
    cases member
  | cons event rest ih =>
    rw [steps_cons, forall_mem_append]
    rcases handle_ends verified flow safe event with ⟨fits, next⟩ | ⟨unfit, fault, vm, trapped, structural⟩
    · rw [and_iff_right fits]
      exact ih (flow.handle event) next
    · rw [play, foldl_cons, trapped]
      refine iff_of_false ?_ fun all => unfit all.1
      change ¬ ((Flow.trapped fault vm).play rest).Sound chunk
      rw [stopped_play (.trapped fault vm) (fun _ => rfl) rest]
      exact fun sound => by simp [Sound, structural] at sound

end Run

theorem verified_flow_sound_iff (layout : Layout) (chunk : Chunk) (config : VerifyConfig)
    (accepted : verifyWith chunk config = .ok ()) (natives : NativeTable) (contract : natives.ReportsOnly)
    (nativeGate : NativeGate) (function : UInt32) (known : function.toNat < chunk.functions.length) (args : List Value)
    (events : List FlowEvent) :
    ((start layout chunk natives nativeGate function args).play events).Sound chunk ↔
      ∀ before ∈ (start layout chunk natives nativeGate function args).steps events, before.ChildIndexFits := by
  have verified := verify_with_verified chunk config accepted
  exact play_sound_iff verified _ (start_safe layout chunk verified natives contract nativeGate function known args)
    events

def calling : Chunk :=
  { name := "calling", constants := [],
    code := [{ op := .call, a := 0, b := 0, c := 0, imm := 1 }, { op := .startChild, a := 1, b := 0, c := 0, imm := 1 },
      { op := .ret, a := 0, b := 0, c := 0, imm := 0 }, { op := .loadImm, a := 0, b := 0, c := 0, imm := 7 }],
    functions := [{ name := "main", entry := 0, arity := 0, numRegisters := 2 },
      { name := "seven", entry := 3, arity := 0, numRegisters := 1 }] }

theorem calling_sound :
    ((start .word calling ⟨[]⟩ (.deny 0) 0 []).play [.slice 2, .slice 8, .deliver 1 (.int 3)]).Sound calling := by
  refine (verified_flow_sound_iff .word calling ⟨.untrusted⟩ (by rfl) ⟨[]⟩ ?_ (.deny 0) 0 (by decide) []
    [.slice 2, .slice 8, .deliver 1 (.int 3)]).mpr ?_
  · intro index native found
    simp [NativeTable.get] at found
  · decide

def spawnerFn : FunctionDef := { name := "main", entry := 0, arity := 0, numRegisters := 1 }

def crowd (n : Nat) (imm : Int32) : Chunk :=
  { name := "crowd", constants := [], code := [{ op := .startChild, a := 0, b := 0, c := 0, imm := imm }],
    functions := List.replicate n spawnerFn }

theorem crowd_member {n : Nat} {imm : Int32} {fn : FunctionDef} (member : fn ∈ (crowd n imm).functions) :
    fn = spawnerFn := (mem_replicate.mp member).2

theorem crowd_row (n : Nat) (imm : Int32) (index : UInt32) :
    (crowd n imm).function index = if index.toNat < n then some spawnerFn else none := by
  simp [crowd, Chunk.function, getElem?_replicate]

theorem crowd_limit (n : Nat) (imm : Int32) (some_ : 0 < n) : ((registerLimits (crowd n imm))[0]?).join = some 1 := by
  have member : spawnerFn ∈ (crowd n imm).functions := mem_replicate.mpr ⟨by omega, rfl⟩
  have inside : InSpan (crowd n imm) spawnerFn 0 :=
    ⟨Nat.le_refl _, exclusive_end_gt (crowd n imm).functions 0 1 Nat.zero_lt_one⟩
  rw [register_limit_at (crowd n imm) spawnerFn 0 member inside]
  rw [groupLimit, crowd, filter_replicate_of_pos (by rfl), map_replicate, min?_replicate_of_pos some_]
  rfl

theorem crowd_accepted (n : Nat) (imm : Int32) (config : VerifyConfig) (row : imm.toUInt32.toNat < n) :
    verifyWith (crowd n imm) config = .ok () := by
  have functions : ∀ row ∈ (crowd n imm).functions.zipIdx, verifyFunction (crowd n imm) row.2 row.1 = .ok () := by
    intro row member
    rw [crowd_member (fst_mem_of_mem_zipIdx member)]
    rfl
  have closed : rejectFallthrough (crowd n imm) = .ok () := by
    refine (forM_except_ok_iff _ _).mpr fun row member => ?_
    obtain ⟨fn, function⟩ := row
    have stop := exclusive_end_gt (crowd n imm).functions 0 1 Nat.zero_lt_one
    obtain rfl : fn = spawnerFn := crowd_member (fst_mem_of_mem_zipIdx member)
    exact if_pos (Or.inl stop)
  have code : verifyInstruction (crowd n imm) (registerLimits (crowd n imm)) 0
      { op := .startChild, a := 0, b := 0, c := 0, imm := imm } = .ok () := by
    simp only [verifyInstruction, verifyStartChild, crowd_row, if_pos row, withLimit,
      crowd_limit n imm (Nat.lt_of_le_of_lt (Nat.zero_le _) row)]
    rfl
  have table : (crowd n imm).functions.isEmpty = false := by
    have length : (crowd n imm).functions.length = n := length_replicate
    rw [isEmpty_eq_false_iff, ← length_pos_iff, length]
    omega
  simp only [verifyWith, table, Bool.false_eq_true, if_false]
  refine (except_bind_ok_iff _ _ _).mpr ⟨(), rfl, (except_bind_ok_iff _ _ _).mpr
    ⟨(), (forM_except_ok_iff _ _).mpr functions, ?_⟩⟩
  refine (except_bind_ok_iff _ _ _).mpr ⟨(), (forM_except_ok_iff _ _).mpr ?_, closed⟩
  simpa [crowd] using code

-- A negative immediate reaches the interpreter as row u32::MAX.
theorem crowd_traps (layout : Layout) (natives : NativeTable) (nativeGate : NativeGate) (n : Nat) (imm : Int32)
    (some_ : 0 < n) (few : n < 2 ^ 32) (negative : ¬ 0 ≤ imm.toInt) :
    ∃ vm, (start layout (crowd n imm) natives nativeGate 0 []).play [.slice 1] =
      .trapped (.badFunction 4294967295 (UInt32.ofNat n)) vm := by
  have main : (crowd n imm).function 0 = some spawnerFn := by
    rw [crowd_row]
    exact if_pos some_
  have missing : (crowd n imm).function 4294967295 = none := by
    rw [crowd_row]
    exact if_neg (by change ¬ 4294967295 < n; omega)
  have length : (crowd n imm).functions.length = n := length_replicate
  have code : (crowd n imm).code[0]? = some { op := .startChild, a := 0, b := 0, c := 0, imm := imm } := rfl
  have index : (u32TryFrom imm).getD 4294967295 = 4294967295 := Vm.child_index_negative imm negative
  have trapped : ∀ vm : Vm, vm.chunk = crowd n imm → vm.frames.map Frame.pc = [0] →
      ∃ after, vm.run 1 = (.error (.badFunction 4294967295 (UInt32.ofNat n)), after) := by
    intro vm sameChunk frames
    obtain ⟨frame, rest, listed, pc, _⟩ := map_eq_cons_iff.mp frames
    simp [Vm.run, Vm.step, Vm.fetch, exec_bind, Vm.current, listed, sameChunk, pc, code, Vm.execute, index,
      Vm.setTop, missing, length]
  have started : start layout (crowd n imm) natives nativeGate 0 [] = .running
      ⟨layout, crowd n imm, natives, nativeGate, [Frame.new 0 1 none], 0, 1, none, none, [], 0⟩ := by
    simp only [start, Vm.withNativeGate, main]
    rfl
  obtain ⟨after, ran⟩ := trapped
    ⟨layout, crowd n imm, natives, nativeGate, [Frame.new 0 1 none], 0, 1, none, none, [], 0⟩ rfl rfl
  rw [started]
  exact ⟨after, by simp [play, handle, ran]⟩

theorem negative_start_child_traps :
    verifyWith (crowd 2147483649 (-2147483648)) ⟨.untrusted⟩ = .ok () ∧
      ∃ vm, (start .word (crowd 2147483649 (-2147483648)) ⟨[]⟩ (.deny 0) 0 []).play [.slice 1] =
        .trapped (.badFunction 4294967295 2147483649) vm :=
  ⟨crowd_accepted 2147483649 (-2147483648) _ (by decide),
    crowd_traps _ _ _ 2147483649 (-2147483648) (by decide) (by decide) (by decide)⟩

end Flow

end Byteflow
