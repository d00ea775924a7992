import Byteflow.HeapAccount
import Byteflow.FlowSound
import Byteflow.VmKeeps

namespace Byteflow

open List Exec

namespace Vm

variable {vm state : Vm} {base : Nat × Nat} {rest charged : Nat} {frame : Frame} {value : Value}
  {top : Frame} {below : List Frame}

-- While a call loads its arguments only the accounts move.
structure Reserved (base : Nat × Nat) (bytes : Nat) (vm state : Vm) : Prop where
  pays : state.Pays base bytes
  accounts : ∃ quota memory, state = vm.withAccounts quota memory

theorem reserved_layout {bytes : Nat} (reserved : Reserved base bytes vm state) : state.layout = vm.layout := by
  obtain ⟨_, _, rfl⟩ := reserved.accounts
  rfl

theorem reserved_release {delta : Nat} (reserved : Reserved base (rest + delta) vm state) :
    Reserved base rest vm (state.released delta) := by
  obtain ⟨quota, memory, rfl⟩ := reserved.accounts
  refine ⟨?_, _, _, rfl⟩
  have given := released_pays reserved.pays (Nat.le_add_left delta rest)
  rw [Nat.add_sub_cancel] at given
  exact given

theorem rollback_ends {α : Type} {Q : α → Vm → Prop} (fault : Fault) (reserved : Reserved base (rest + charged) vm state) :
    Ends Q (fun _ after => Reserved base rest vm after) (exec (rollback charged fault) state) := by
  rw [rollback]
  by_cases some_ : charged > 0
  · rw [if_pos some_, exec_bind, exec_release]
    exact reserved_release reserved
  · rw [if_neg some_]
    have none_ : charged = 0 := by omega
    subst none_
    exact reserved

theorem charge_arg_ends (reserved : Reserved base (rest + charged) vm state) (same : frame.heapCharge = charged)
    (chargeable : heapChargeOf vm.layout value = .ok (chargeOf vm.layout value)) :
    Ends (fun loaded after => Reserved base (rest + loaded.2) vm after ∧ loaded.2 = charged + chargeOf vm.layout value ∧
        loaded.1 = { frame with heapCharge := loaded.2 })
      (fun _ after => Reserved base rest vm after) (exec (chargeArg charged frame value) state) := by
  rw [chargeArg, exec_get_bind]
  rw [reserved_layout reserved, exec_bind, exec_reading, chargeable]
  dsimp only
  by_cases some_ : chargeOf vm.layout value > 0
  · rw [if_pos some_]
    have charging : Ends (fun _ after => Reserved base (rest + charged + chargeOf vm.layout value) vm after)
        (fun _ after => Reserved base rest vm after)
        (exec (onError (charge (chargeOf vm.layout value)) (rollback charged)) state) := by
      refine ends_on_error (F := fun _ after => after = state) ?_ fun fault after unchanged => ?_
      · have paying := charge_ends (chargeOf vm.layout value) reserved.pays
        obtain ⟨quota, memory, rfl⟩ := reserved.accounts
        revert paying
        rcases exec (charge (chargeOf vm.layout value)) (vm.withAccounts quota memory) with ⟨fault | done, after⟩
        · exact id
        · exact fun ⟨pays, _, quota, memory, moved⟩ => ⟨pays, quota, memory, moved⟩
      · rw [unchanged]
        exact rollback_ends fault reserved
    refine ends_next charging fun _ after paid => ?_
    cases sum : vm.layout.checkedAdd charged (chargeOf vm.layout value) with
    | none =>
      dsimp only
      rw [exec_bind, exec_release]
      dsimp only
      rw [exec_bind, exec_release]
      have swapped : rest + charged + chargeOf vm.layout value = rest + chargeOf vm.layout value + charged := by omega
      exact reserved_release (reserved_release (swapped ▸ paid))
    | some next =>
      have total := checked_add_some sum
      have regrouped : rest + charged + chargeOf vm.layout value = rest + next := by omega
      dsimp only
      rw [regrouped] at paid
      have added : frame.tryAddHeapCharge vm.layout (chargeOf vm.layout value) =
          some { frame with heapCharge := next } := by
        rw [Frame.tryAddHeapCharge, same, sum]
        rfl
      rw [added]
      exact ⟨paid, total, rfl⟩
  · rw [if_neg some_]
    have free : chargeOf vm.layout value = 0 := by omega
    refine ⟨reserved, by rw [free]; rfl, ?_⟩
    subst same
    rfl

def FreshFrom (i : Nat) (frame : Frame) : Prop := ∀ j value, i ≤ j → frame.registers[j]? = some value → value = .unit

theorem fresh_write {i : Nat} (fresh : FreshFrom i frame) : FreshFrom (i + 1) (frame.write i value) := by
  intro j other later held
  have differs : i ≠ j := by omega
  rw [Frame.write, getElem?_set_ne differs] at held
  exact fresh j other (by omega) held

theorem load_args_ends (args : List Value) (i : Nat) (fresh : FreshFrom i frame) (own : frame.Charged vm.layout)
    (same : frame.heapCharge = charged) (reserved : Reserved base (rest + charged) vm state)
    (chargeable : ∀ value ∈ args, heapChargeOf vm.layout value = .ok (chargeOf vm.layout value)) :
    Ends (fun next after => Reserved base (rest + next.heapCharge) vm after ∧ next.Charged vm.layout ∧
        next.destReg = frame.destReg)
      (fun _ after => Reserved base rest vm after) (exec (loadFrameArgsChargedFrom i charged frame args) state) := by
  induction args generalizing i charged frame state with
  | nil => exact ⟨same ▸ reserved, own, rfl⟩
  | cons value others ih =>
    have valueCharge := chargeable value mem_cons_self
    rw [loadFrameArgsChargedFrom]
    refine ends_next (charge_arg_ends reserved same valueCharge) fun loaded after ⟨paid, total, grown⟩ => ?_
    obtain ⟨next, nextCharged⟩ := loaded
    dsimp only at paid total grown ⊢
    by_cases room : i < next.registers.length
    · rw [if_pos room]
      subst grown
      have unit : frame.registers[i]? = some .unit := by
        obtain ⟨held, found⟩ : ∃ held, frame.registers[i]? = some held := ⟨_, getElem?_eq_getElem room⟩
        rw [found, fresh i held (Nat.le_refl i) found]
      have free : chargeOf vm.layout .unit = 0 :=
        heap_charge_chargeable vm.layout .unit (scalar_charge vm.layout .unit rfl)
      refine ih (i + 1) (fresh_write fresh) (Frame.charged_write own unit valueCharge rfl ?_) rfl paid
        fun other member => chargeable other (mem_cons_of_mem value member)
      dsimp only
      omega
    · rw [if_neg room]
      exact rollback_ends _ paid

theorem gather_regs_chargeable {argBase argc : UInt8} {offset : Nat} {args : List Value} (accounted : vm.Accounted base)
    (gathered : vm.gatherRegs argBase argc offset = .ok args) :
    ∀ value ∈ args, heapChargeOf vm.layout value = .ok (chargeOf vm.layout value) := by
  intro value member
  obtain ⟨i, _, found⟩ := mapM_except_ok _ _ _ gathered value member
  obtain ⟨reg, _, found⟩ := (except_bind_ok_iff _ _ _).mp found
  obtain ⟨top, below, frames, held⟩ := get_reg_held found
  exact (accounted.paid.charged top (by rw [frames]; exact mem_cons_self)).each value (mem_of_getElem? held)

abbrev Active (vm : Vm) : Prop := vm.frames ≠ []

abbrev GoesOn {α : Type} (base : Nat × Nat) (m : VmM α) (vm : Vm) : Prop :=
  Ends (fun _ after => after.Accounted base ∧ after.Active) (fun _ after => after.Accounted base) (exec m vm)

-- A call or a tail call enters its frame with the accounts balanced, and a
-- call whose arguments do not fit leaves them as they were.
theorem load_push_balances (accounted : vm.Accounted base) (function : UInt32) (fn : FunctionDef) (destReg : Option UInt8)
    (root : destReg = none → vm.frames = []) (args : List Value)
    (chargeable : ∀ value ∈ args, heapChargeOf vm.layout value = .ok (chargeOf vm.layout value)) :
    GoesOn base (loadFrameArgsCharged { Frame.new function fn.numRegisters destReg with pc := fn.entry.toNat } args fn.arity >>=
      pushFrame) vm := by
  have own : (Frame.new function fn.numRegisters destReg).Charged vm.layout :=
    Frame.new_charged function fn.numRegisters destReg
  have start : Reserved base (vm.frameBytes + vm.dictBytes + 0) vm vm := ⟨accounted.paid.pays, vm.quota, vm.memory, rfl⟩
  have fresh : FreshFrom 0 { Frame.new function fn.numRegisters destReg with pc := fn.entry.toNat } :=
    fun _ _ _ held => eq_of_mem_replicate (mem_of_getElem? held)
  have loading := load_args_ends (args.take fn.arity.toNat) 0 fresh ⟨own.each, own.total⟩ rfl start
    fun value member => chargeable value (mem_of_mem_take member)
  refine ends_bind loading (fun next state ⟨reserved, charged, dest⟩ => ?_) fun _ state reserved => ?_
  · obtain ⟨quota, memory, rfl⟩ := reserved.accounts
    refine ⟨⟨⟨?_, ?_, ?_⟩, same_dict_charged accounted.dict ⟨rfl, rfl, rfl⟩⟩, cons_ne_nil _ _⟩
    · intro frame member
      rcases mem_cons.mp member with rfl | inside
      · exact charged
      · exact accounted.paid.charged frame inside
    · have total : vm.frameBytes + vm.dictBytes + next.heapCharge = next.heapCharge + vm.frameBytes + vm.dictBytes := by omega
      have pays := reserved.pays
      rw [total] at pays
      exact ⟨pays.quota, pays.memory⟩
    · exact ⟨fun none_ => root (dest.symm.trans none_), accounted.paid.rooted⟩
  · obtain ⟨quota, memory, rfl⟩ := reserved.accounts
    exact accounted_same_dict accounted.dict ⟨rfl, rfl, rfl⟩ (paid_moved accounted.paid rfl rfl reserved.pays)

theorem popped_pays {keep : Nat} (accounted : vm.Accounted base)
    (frames : vm.frames = top :: below) (small : keep ≤ top.heapCharge) :
    Pays base (keep + (below.map Frame.heapCharge).sum + vm.dictBytes)
      ({ vm with frames := below }.released (top.heapCharge - keep)) := by
  have bytes := frame_bytes_cons frames
  have before : Pays base (vm.frameBytes + vm.dictBytes) { vm with frames := below } :=
    ⟨accounted.paid.pays.quota, accounted.paid.pays.memory⟩
  have given := released_pays before (show top.heapCharge - keep ≤ vm.frameBytes + vm.dictBytes by omega)
  rwa [show vm.frameBytes + vm.dictBytes - (top.heapCharge - keep) =
    keep + (below.map (·.heapCharge)).sum + vm.dictBytes by omega] at given

theorem popped_accounted (accounted : vm.Accounted base) (frames : vm.frames = top :: below) :
    ({ vm with frames := below }.released top.heapCharge).Accounted base := by
  have charged := accounted.paid.charged
  have rooted := accounted.paid.rooted
  have pays := popped_pays accounted frames (Nat.zero_le _)
  rw [frames] at charged rooted
  rw [Nat.zero_add] at pays
  exact ⟨⟨fun frame member => charged frame (mem_cons_of_mem top member), pays, rooted.2⟩,
    same_dict_charged accounted.dict ⟨rfl, rfl, rfl⟩⟩

theorem call_balances (instr : Instruction) (accounted : vm.Accounted base) : GoesOn base (call instr) vm := by
  rw [GoesOn, call, exec_get_bind]
  by_cases deep : vm.frames.length ≥ MAX_CALL_DEPTH
  · rw [if_pos deep]
    exact accounted
  · rw [if_neg deep]
    refine ends_reading_bind (fun fn _ => ?_) fun _ _ => accounted
    refine ends_reading_bind (fun args gathered => ?_) fun _ _ => accounted
    exact load_push_balances accounted _ fn _ (fun none_ => by cases none_) args
      (gather_regs_chargeable accounted gathered)

theorem tail_call_balances (instr : Instruction) (accounted : vm.Accounted base) : GoesOn base (tailCall instr) vm := by
  refine ends_reading_bind (fun fn _ => ?_) fun _ _ => accounted
  refine ends_reading_bind (fun args gathered => ?_) fun _ _ => accounted
  refine ends_reading_bind (fun finished top => ?_) fun _ _ => accounted
  obtain ⟨below, frames⟩ := current_ok vm finished top
  have rooted := accounted.paid.rooted
  rw [frames] at rooted
  rw [exec_bind, exec_modify]
  dsimp only
  rw [exec_bind, exec_release, frames]
  have chargeable := gather_regs_chargeable accounted gathered
  exact load_push_balances (popped_accounted accounted frames) _ fn _ rooted.1 args chargeable

-- What a step or a slice leaves when the flow is complete: a return from the
-- bottom frame empties the stack, a halt does not.
def Settled (base : Nat × Nat) (value : Value) (vm : Vm) : Prop :=
  if vm.frames = [] then vm.Returned base value else vm.Accounted base

def Outcome (base : Nat × Nat) : Option VmResult → Vm → Prop
  | some (.complete value), vm => vm.Settled base value
  | _, vm => vm.Accounted base ∧ vm.frames ≠ []

theorem settled_returned (returned : vm.Returned base value) : vm.Settled base value := by
  rw [Settled, if_pos returned.frames]
  exact returned

theorem outcome_active (accounted : vm.Accounted base) (active : vm.frames ≠ []) (result : Option VmResult) :
    Outcome base result vm := by
  cases result with
  | none => exact ⟨accounted, active⟩
  | some outcome =>
    cases outcome with
    | complete value =>
      rw [Outcome, Settled, if_neg active]
      exact accounted
    | _ => exact ⟨accounted, active⟩

theorem active_stable : Stable Active where
  top _ _ _ := cons_ne_nil _ _
  accounts _ _ _ active := active
  dictionary _ _ _ active := active
  requestId _ _ active := active

def Owned (vm : Vm) (value : Value) : Prop :=
  ∀ top below, vm.frames = top :: below → ∃ keep, heapChargeOf vm.layout value = .ok keep ∧ keep ≤ top.heapCharge

theorem unit_owned (vm : Vm) : vm.Owned .unit :=
  fun top _ _ => ⟨0, scalar_charge vm.layout .unit rfl, Nat.zero_le top.heapCharge⟩

theorem get_reg_owned {reg : UInt8} (accounted : vm.Accounted base) (held : vm.getReg reg = .ok value) :
    vm.Owned value := by
  intro top below frames
  obtain ⟨frame, rest, listed, held⟩ := get_reg_held held
  cases frames.symm.trans listed
  have charged := accounted.paid.charged top (by rw [frames]; exact mem_cons_self)
  have member := mem_of_getElem? held
  exact ⟨_, charged.each value member, Frame.charged_le charged member⟩

theorem store_outcome (reg : UInt8) (accounted : vm.Accounted base) : GoesOn base (setReg reg value) vm := by
  cases frames : vm.frames with
  | nil =>
    rw [GoesOn, setReg, exec_bind, exec_reading, current, frames]
    exact accounted
  | cons top below =>
    have active : vm.Active := by
      rw [Active, frames]
      exact cons_ne_nil top below
    exact ends_mono (ends_and (set_reg_balances base reg value vm accounted) (set_reg_keeps active_stable reg value vm active))
      (fun _ _ both => both) fun _ _ both => both.1

theorem pop_frame_outcome (accounted : vm.Accounted base) (owned : vm.Owned value) :
    Ends (Outcome base) (fun _ after => after.Accounted base) (exec (popFrame value) vm) := by
  rw [popFrame, exec_get_bind]
  cases frames : vm.frames with
  | nil => exact accounted
  | cons finished below =>
    dsimp only
    cases dest : finished.destReg with
    | some reg =>
      dsimp only
      rw [exec_bind, exec_modify]
      dsimp only
      rw [exec_bind, exec_release]
      refine ends_next (store_outcome reg (popped_accounted accounted frames)) fun _ _ stored => stored
    | none =>
      have rooted := accounted.paid.rooted
      rw [frames] at rooted
      have last : below = [] := rooted.1 dest
      subst last
      obtain ⟨keep, charge, small⟩ := owned finished [] frames
      dsimp only
      rw [exec_bind, exec_reading, charge]
      dsimp only
      rw [exec_bind, exec_modify]
      dsimp only
      rw [exec_bind, exec_release]
      change Settled base value ({ vm with frames := [] }.released (finished.heapCharge - keep))
      exact settled_returned ⟨rfl, ⟨keep, charge, popped_pays accounted frames small⟩,
        same_dict_charged accounted.dict ⟨rfl, rfl, rfl⟩⟩

theorem set_pc_accounted (accounted : vm.Accounted base) (frames : vm.frames = top :: below)
    (pc : Nat) : (setTop { top with pc := pc } vm).Accounted base := by
  have charged := accounted.paid.charged top (by rw [frames]; exact mem_cons_self)
  have placed : (setTop { top with pc := pc } vm).frames = { top with pc := pc } :: below := by
    rw [setTop, frames]
    rfl
  refine accounted_same_dict accounted.dict ⟨rfl, rfl, rfl⟩
    (paid_replace accounted.paid frames ?_ rfl placed ⟨charged.each, charged.total⟩ rfl)
  have pays := accounted.paid.pays
  rw [frame_bytes_cons frames] at pays
  exact ⟨pays.quota, pays.memory⟩

theorem jump_balances (imm : Int32) (accounted : vm.Accounted base) (active : vm.frames ≠ []) :
    GoesOn base (applyRelativeJump imm) vm := by
  obtain ⟨top, below, frames⟩ := exists_cons_of_ne_nil active
  rw [GoesOn, applyRelativeJump, exec_get_bind]
  rw [exec_bind, exec_reading, frames_cons frames]
  dsimp only
  by_cases outside : (top.pc : Int) + imm.toInt < 0 ∨ ((top.pc : Int) + imm.toInt).toNat > vm.chunk.code.length
  · rw [if_pos outside]
    exact accounted
  · rw [if_neg outside]
    exact ⟨set_pc_accounted accounted frames _, cons_ne_nil _ _⟩

theorem branch_outcome (imm : Int32) (reg : UInt8) (taken : Value → Prop) [DecidablePred taken]
    (accounted : vm.Accounted base) (active : vm.frames ≠ []) :
    Ends (Outcome base) (fun _ after => after.Accounted base)
      (exec (do
        let value ← reading (getReg reg)
        if taken value then applyRelativeJump imm
        return none) vm) := by
  refine ends_reading_bind (fun value _ => ?_) fun _ _ => accounted
  by_cases jumps : taken value
  · rw [if_pos jumps]
    exact ends_next (jump_balances imm accounted active) fun _ _ done => done
  · rw [if_neg jumps]
    exact ⟨accounted, active⟩

theorem execute_outcome (instr : Instruction) (accounted : vm.Accounted base) (active : vm.frames ≠ []) :
    Ends (Outcome base) (fun _ after => after.Accounted base) (exec (execute instr) vm) := by
  by_cases control : isControl instr.op = true
  · cases isOp : instr.op
    all_goals try exact absurd (isOp ▸ control) (by decide)
    all_goals simp only [execute, isOp]
    case jump =>
      exact ends_next (jump_balances instr.imm accounted active) fun _ _ done => done
    case branch =>
      exact branch_outcome instr.imm instr.a (fun value => value.isTruthy = false) accounted active
    case branchTrue =>
      exact branch_outcome instr.imm instr.a (fun value => value.isTruthy = true) accounted active
    case call =>
      exact ends_next (call_balances instr accounted) fun _ _ done => done
    case tailCall =>
      exact ends_next (tail_call_balances instr accounted) fun _ _ done => done
    case ret =>
      exact ends_reading_bind (fun value held => pop_frame_outcome accounted (get_reg_owned accounted held))
        fun _ _ => accounted
  · have scripted := execute_scripted instr (Bool.eq_false_iff.mpr control)
    have balanced := built_keeps (register_atom_balances base) scripted vm accounted
    have stays := scripted_keeps active_stable scripted vm active
    exact ends_mono (ends_and balanced stays) (fun result _ both => outcome_active both.1 both.2 result)
      fun _ _ both => both.1

theorem step_outcome (accounted : vm.Accounted base) (active : vm.frames ≠ []) :
    Ends (Outcome base) (fun _ after => after.Accounted base) (exec step vm) := by
  have counted : Accounted base { vm with instructionsExecuted := vm.instructionsExecuted + 1 } :=
    accounted_untouched accounted rfl ⟨rfl, rfl, rfl⟩ rfl rfl
  obtain ⟨top, below, frames⟩ := exists_cons_of_ne_nil active
  cases found : vm.chunk.code[top.pc]? with
  | some instr =>
    have moved : (vm.advanced top below).Accounted base := by
      simpa only [setTop, advanced, frames, tail_cons] using set_pc_accounted counted frames (top.pc + 1)
    rw [exec_step_some frames found]
    exact execute_outcome instr moved (cons_ne_nil _ _)
  | none =>
    rw [exec_step_none frames found]
    exact pop_frame_outcome counted (unit_owned _)

theorem run_outcome (budget : Nat) (accounted : vm.Accounted base) (active : vm.frames ≠ []) :
    Ends (fun result after => Outcome base (some result) after) (fun _ after => after.Accounted base) (vm.run budget) ∧
      ∀ before ∈ vm.sliceSteps budget, before.Accounted base ∧
        Ends (Outcome base) (fun _ after => after.Accounted base) (exec step before) := by
  induction budget generalizing vm with
  | zero => exact ⟨⟨accounted, active⟩, forall_mem_nil _⟩
  | succ budget ih =>
    have stepped := step_outcome accounted active
    rw [run, sliceSteps, forall_mem_cons]
    rcases taken : exec step vm with ⟨fault | _ | result, next⟩
    · rw [taken] at stepped
      exact ⟨stepped, ⟨accounted, stepped⟩, forall_mem_nil _⟩
    · rw [taken] at stepped
      obtain ⟨ran, steps⟩ := ih stepped.1 stepped.2
      exact ⟨ran, ⟨accounted, stepped⟩, steps⟩
    · rw [taken] at stepped
      exact ⟨stepped, ⟨accounted, stepped⟩, forall_mem_nil _⟩

section Attach

variable {layout : Layout}

theorem registers_charge_sum (values : List Value) (sum total : Nat) (charged : registersCharge layout sum values = .ok total) :
    (∀ value ∈ values, heapChargeOf layout value = .ok (chargeOf layout value)) ∧
      total = sum + (values.map (chargeOf layout)).sum := by
  induction values generalizing sum with
  | nil =>
    cases charged
    exact ⟨forall_mem_nil _, rfl⟩
  | cons value rest ih =>
    obtain ⟨part, charge, charged⟩ := (except_bind_ok_iff _ _ _).mp charged
    have isPart := heap_charge_chargeable layout value charge
    cases added : layout.checkedAdd sum part with
    | none =>
      rw [added] at charged
      cases charged
    | some next =>
      rw [added] at charged
      obtain ⟨each, rest⟩ := ih next charged
      have isNext := checked_add_some added
      refine ⟨forall_mem_cons.mpr ⟨by rw [isPart, charge], each⟩, ?_⟩
      rw [map_cons, sum_cons]
      omega

theorem attach_pays {state : Vm} {quota : FlowQuota} {memory : MemoryBudget} {bytes : Nat}
    {pair : FlowQuota × Option MemoryBudget} (charged : chargePair state.layout quota (some memory) bytes = .ok pair)
    (hasQuota : state.quota = some pair.1) (hasMemory : state.memory = pair.2) :
    state.Pays (quota.memUsed, memory.used) bytes := by
  rcases charge_pair_ok charged with ⟨rfl, rfl⟩ | ⟨rfl, quotaFits, memoryFits⟩
  · exact ⟨⟨quota, hasQuota, rfl, Or.inl rfl⟩, memory, hasMemory, rfl, Or.inl rfl⟩
  · exact ⟨⟨_, hasQuota, rfl, Or.inr quotaFits⟩, _, hasMemory, rfl, Or.inr (memoryFits memory rfl)⟩

theorem set_quota_accounted {after : Vm} {memory : MemoryBudget} {quota : FlowQuota} (frames : vm.frames = [frame])
    (dict : vm.dict = []) (dictBytes : vm.dictBytes = 0) (budget : vm.memory = some memory)
    (attached : vm.setQuota quota = .ok after) :
    after.Accounted (quota.memUsed, memory.used) ∧ after.frames ≠ [] := by
  rw [setQuota, frames, budget] at attached
  obtain ⟨⟨perFrame, total⟩, walked, attached⟩ := (except_bind_ok_iff _ _ _).mp attached
  obtain ⟨bytes, registers, walked⟩ := (except_bind_ok_iff _ _ _).mp walked
  obtain ⟨each, sum⟩ := registers_charge_sum frame.registers 0 bytes registers
  split at walked
  · cases walked
  rename_i _ added
  have isNext := checked_add_some added
  cases walked
  dsimp only at attached
  rw [dictBytes] at attached
  split at attached
  · cases attached
  rename_i reserved whole
  have isReserved := checked_add_some whole
  obtain ⟨pair, charged, attached⟩ := (except_bind_ok_iff _ _ _).mp attached
  cases attached
  have reservedBytes : reserved = bytes := by omega
  have own : Frame.Charged vm.layout { frame with heapCharge := bytes } := ⟨each, by rw [sum, Nat.zero_add]⟩
  have empty : DictCharged (vm.withAccounts (some pair.1) pair.2) :=
    ⟨by rw [withAccounts, dict]; exact forall_mem_nil _, by rw [withAccounts, dict, dictBytes]; rfl,
      by rw [withAccounts, dict]; exact nodup_nil⟩
  refine ⟨⟨⟨?_, ?_, ?_⟩, same_dict_charged empty ⟨rfl, rfl, dictBytes.symm⟩⟩, cons_ne_nil _ _⟩
  · intro other member
    rw [mem_singleton.mp member]
    exact own
  · rw [reservedBytes] at charged
    exact attach_pays charged rfl rfl
  · exact ⟨fun _ => rfl, trivial⟩

end Attach

end Vm

namespace Flow

-- spawn_root: the budget and the quota are attached before the first slice.
def startMetered (layout : Layout) (chunk : Chunk) (natives : NativeTable) (nativeGate : NativeGate) (function : UInt32)
    (args : List Value) (quota : FlowQuota) (memory : MemoryBudget) : Flow :=
  match Vm.withNativeGate layout chunk natives nativeGate function args with
  | .error fault => .rejected fault
  | .ok vm =>
    match (vm.setMemoryBudget memory).setQuota quota with
    | .error fault => .rejected fault
    | .ok vm => .running vm

-- Nobody else charges the two counters during the run. The quota's limit may be raised (top_up_mem).
def Undisturbed : Flow → List FlowEvent → Prop
  | _, [] => True
  | flow, event :: rest =>
    (match flow, event with
      | .running vm, .environment quota memory _ => memory = vm.memory ∧
          ∃ old limit, vm.quota = some old ∧ old.memLimit ≤ limit ∧ quota = some { old with memLimit := limit }
      | _, _ => True) ∧ Undisturbed (flow.handle event) rest

-- base is what the quota and the budget showed before the flow.
def Accounted (base : Nat × Nat) : Flow → Prop
  | .running vm => vm.Accounted base ∧ vm.frames ≠ []
  | .completed value vm => vm.Settled base value
  | .trapped _ vm => vm.Accounted base
  | .rejected _ => True

section Run

variable {base : Nat × Nat}

theorem start_metered_accounted (layout : Layout) (chunk : Chunk) (natives : NativeTable) (nativeGate : NativeGate)
    (function : UInt32) (args : List Value) (quota : FlowQuota) (memory : MemoryBudget) :
    (startMetered layout chunk natives nativeGate function args quota memory).Accounted (quota.memUsed, memory.used) := by
  rw [startMetered]
  cases built : Vm.withNativeGate layout chunk natives nativeGate function args with
  | error fault => trivial
  | ok vm =>
    dsimp only
    cases attached : (vm.setMemoryBudget memory).setQuota quota with
    | error fault => trivial
    | ok after =>
      rw [Vm.withNativeGate] at built
      split at built
      · cases built
      obtain ⟨frame, _, built⟩ := (except_bind_ok_iff _ _ _).mp built
      cases built
      exact Vm.set_quota_accounted rfl rfl rfl rfl attached

theorem slice_accounted {vm : Vm} (budget : Nat) (accounted : vm.Accounted base) (active : vm.frames ≠ []) :
    ((Flow.running vm).handle (.slice budget)).Accounted base := by
  have ran := (Vm.run_outcome budget accounted active).1
  rw [handle]
  revert ran
  rcases vm.run budget with ⟨fault | result, after⟩
  · exact id
  · cases result <;> exact id

theorem deliver_accounted {vm : Vm} (destReg : UInt8) (value : Value) (accounted : vm.Accounted base) :
    ((Flow.running vm).handle (.deliver destReg value)).Accounted base := by
  have stored : Ends _ _ (exec (Vm.resumeWith destReg value) vm) := Vm.store_outcome destReg accounted
  rw [handle]
  revert stored
  rcases exec (Vm.resumeWith destReg value) vm with ⟨fault | done, after⟩
  · exact id
  · exact id

theorem handle_accounted (flow : Flow) (event : FlowEvent) (accounted : flow.Accounted base)
    (alone : flow.Undisturbed [event]) : (flow.handle event).Accounted base := by
  cases flow with
  | running vm =>
    cases event with
    | slice budget => exact slice_accounted budget accounted.1 accounted.2
    | deliver destReg value => exact deliver_accounted destReg value accounted.1
    | environment quota memory nativeGate =>
      obtain ⟨rfl, old, limit, before, raised, rfl⟩ := alone.1
      obtain ⟨quota, found, used, limited⟩ := accounted.1.paid.pays.quota
      cases before.symm.trans found
      refine ⟨Vm.accounted_same_dict accounted.1.dict ⟨rfl, rfl, rfl⟩
        (Vm.paid_moved accounted.1.paid rfl rfl ⟨⟨_, rfl, used, ?_⟩, accounted.1.paid.pays.memory⟩), accounted.2⟩
      exact limited.imp_right fun both => ⟨both.1.trans raised, both.2⟩
  | completed | trapped | rejected => exact accounted

theorem event_steps_accounted (flow : Flow) (event : FlowEvent) (accounted : flow.Accounted base) :
    ∀ before ∈ flow.steps [event], before.Accounted base ∧
      Ends (Vm.Outcome base) (fun _ after => after.Accounted base) (exec Vm.step before) := by
  cases flow with
  | running vm =>
    cases event with
    | slice budget =>
      have ran := (Vm.run_outcome budget accounted.1 accounted.2).2
      simpa [steps] using ran
    | deliver | environment => exact forall_mem_nil _
  | completed | trapped | rejected => exact forall_mem_nil _

theorem play_accounted (events : List FlowEvent) (flow : Flow) (accounted : flow.Accounted base)
    (alone : flow.Undisturbed events) :
    (flow.play events).Accounted base ∧ ∀ before ∈ flow.steps events, before.Accounted base ∧
      Ends (Vm.Outcome base) (fun _ after => after.Accounted base) (exec Vm.step before) := by
  induction events generalizing flow with
  | nil => exact ⟨accounted, forall_mem_nil _⟩
  | cons event rest ih =>
    have next := handle_accounted flow event accounted ⟨alone.1, trivial⟩
    obtain ⟨ended, later⟩ := ih (flow.handle event) next alone.2
    rw [steps_cons, forall_mem_append]
    exact ⟨ended, event_steps_accounted flow event accounted, later⟩

end Run

theorem metered_flow_accounted (layout : Layout) (chunk : Chunk) (natives : NativeTable) (nativeGate : NativeGate)
    (function : UInt32) (args : List Value) (quota : FlowQuota) (memory : MemoryBudget) (events : List FlowEvent)
    (alone : (startMetered layout chunk natives nativeGate function args quota memory).Undisturbed events) :
    ((startMetered layout chunk natives nativeGate function args quota memory).play events).Accounted
        (quota.memUsed, memory.used) ∧
      ∀ before ∈ (startMetered layout chunk natives nativeGate function args quota memory).steps events,
        before.Accounted (quota.memUsed, memory.used) ∧
        Ends (Vm.Outcome (quota.memUsed, memory.used)) (fun _ after => after.Accounted (quota.memUsed, memory.used))
          (exec Vm.step before) :=
  play_accounted events _ (start_metered_accounted layout chunk natives nativeGate function args quota memory) alone

def storing : Chunk :=
  { name := "storing", constants := [.str "abc"],
    code := [{ op := .loadConst, a := 0, b := 0, c := 0, imm := 0 }, { op := .loadImm, a := 1, b := 0, c := 0, imm := 5 },
      { op := .dictPut, a := 2, b := 1, c := 0, imm := 0 }, { op := .ret, a := 0, b := 0, c := 0, imm := 0 }],
    functions := [{ name := "main", entry := 0, arity := 0, numRegisters := 3 }] }

def storingFlow : Flow := startMetered .word storing ⟨[]⟩ (.deny 0) 0 [] ⟨4096, 100⟩ ⟨8192, 1000⟩

theorem slices_undisturbed (flow : Flow) (budgets : List Nat) : flow.Undisturbed (budgets.map .slice) := by
  induction budgets generalizing flow with
  | nil => trivial
  | cons budget rest ih =>
    refine ⟨?_, ih _⟩
    cases flow <;> trivial

theorem storing_started :
    storingFlow = .running
      ⟨.word, storing, ⟨[]⟩, .deny 0, [Frame.new 0 3 none], 0, 1, some ⟨4096, 100⟩, some ⟨8192, 1000⟩, [], 0⟩ := by
  simp [storingFlow, startMetered, Vm.withNativeGate, storing, Chunk.function, loadFrameArgs, loadFrameArgsFrom, bind, Except.bind,
    Vm.setMemoryBudget, Vm.setQuota, Vm.framesCharge, Vm.registersCharge, Frame.new, List.replicate, heapChargeOf,
    Value.chargeWalk, Layout.checkedAdd, chargePair]

theorem storing_undisturbed :
    storingFlow.Undisturbed
      [.environment (some ⟨5000, 100⟩) (some ⟨8192, 1000⟩) (.deny 3), .slice 2, .slice 8] := by
  rw [storing_started]
  exact ⟨⟨rfl, _, 5000, rfl, by decide, rfl⟩, slices_undisturbed _ [2, 8]⟩

theorem storing_accounted :
    (storingFlow.play [.environment (some ⟨5000, 100⟩) (some ⟨8192, 1000⟩) (.deny 3), .slice 2, .slice 8]).Accounted (100, 1000) ∧
      ∀ before ∈ storingFlow.steps [.environment (some ⟨5000, 100⟩) (some ⟨8192, 1000⟩) (.deny 3), .slice 2, .slice 8],
        before.Accounted (100, 1000) ∧
        Ends (Vm.Outcome (100, 1000)) (fun _ after => after.Accounted (100, 1000)) (exec Vm.step before) :=
  metered_flow_accounted .word storing ⟨[]⟩ (.deny 0) 0 [] ⟨4096, 100⟩ ⟨8192, 1000⟩
    [.environment (some ⟨5000, 100⟩) (some ⟨8192, 1000⟩) (.deny 3), .slice 2, .slice 8] storing_undisturbed

end Flow

end Byteflow
