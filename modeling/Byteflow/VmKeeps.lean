import Byteflow.HeapCharge

namespace Byteflow

open Exec

namespace Vm

abbrev Keeps {α : Type} (holds : Vm → Prop) (m : VmM α) : Prop := Triple holds m (fun _ => holds) (fun _ => holds)

-- A property of the machine that an opcode staying in its frame cannot
-- change: it looks at the stack only below the top frame, and at neither the
-- accounts nor the dictionary nor the request ids.
structure Stable (holds : Vm → Prop) : Prop where
  top : ∀ vm frame, holds vm → holds (setTop frame vm)
  accounts : ∀ (vm : Vm) quota memory, holds vm → holds (vm.withAccounts quota memory)
  dictionary : ∀ (vm : Vm) dict dictBytes, holds vm → holds { vm with dict := dict, dictBytes := dictBytes }
  requestId : ∀ (vm : Vm) nextRequestId, holds vm → holds { vm with nextRequestId := nextRequestId }

section Keeps

variable {holds : Vm → Prop}

theorem reading_keeps {α : Type} (f : Vm → Except Fault α) : Keeps holds (reading f) :=
  triple_reading f (fun _ _ pre _ => pre) fun _ _ pre _ => pre

theorem throw_keeps {α : Type} (fault : Fault) : Keeps holds (throw fault : VmM α) :=
  triple_throw fault fun _ pre => pre

theorem pure_keeps {α : Type} (a : α) : Keeps holds (pure a : VmM α) := triple_pure a fun _ pre => pre

theorem get_keeps : Keeps holds (get : VmM Vm) := fun _ pre => pre

variable (stable : Stable holds)

include stable

theorem set_top_keeps (frame : Frame) : Keeps holds (modify (setTop frame)) :=
  triple_modify _ _ fun vm pre => stable.top vm frame pre

theorem release_keeps (bytes : Nat) : Keeps holds (release bytes) := by
  intro vm pre
  rw [exec_release]
  exact stable.accounts vm _ _ pre

theorem charge_keeps (bytes : Nat) : Keeps holds (charge bytes) := by
  intro vm pre
  cases attached : vm.quota with
  | none =>
    rw [charge, exec_get_bind]
    rw [attached]
    exact pre
  | some quota =>
    rw [exec_charge attached]
    cases chargePair vm.layout quota vm.memory bytes with
    | error fault => exact pre
    | ok pair => exact stable.accounts vm _ _ pre

theorem set_reg_keeps (reg : UInt8) (value : Value) : Keeps holds (setReg reg value) := by
  refine triple_bind (reading_keeps _) fun frame => triple_bind (reading_keeps _) fun old => ?_
  refine triple_ite _ (fun _ => set_top_keeps stable _) fun _ => ?_
  refine triple_bind get_keeps fun vm => ?_
  refine triple_bind (reading_keeps _) fun oldBytes => triple_bind (reading_keeps _) fun newBytes => ?_
  refine triple_ite _ (fun _ => triple_bind (charge_keeps stable _) fun _ => ?_) fun _ => ?_
  · cases frame.tryAddHeapCharge vm.layout (newBytes - oldBytes) with
    | none => exact triple_bind (release_keeps stable _) fun _ => throw_keeps _
    | some next => exact set_top_keeps stable _
  · exact triple_ite _ (fun _ => triple_bind (release_keeps stable _) fun _ => set_top_keeps stable _)
      fun _ => set_top_keeps stable _

theorem adjust_dict_quota_keeps (oldBytes newBytes : Nat) : Keeps holds (adjustDictQuota oldBytes newBytes) := by
  refine triple_ite _ (fun _ => triple_bind (charge_keeps stable _) fun _ => ?_) fun _ => ?_
  · refine triple_get_bind fun vm pre => ?_
    cases vm.layout.checkedAdd vm.dictBytes (newBytes - oldBytes) with
    | some next => exact fun _ _ => stable.dictionary vm vm.dict next pre
    | none =>
      intro state same
      subst same
      exact triple_bind (release_keeps stable _) (fun _ => throw_keeps _) state pre
  · refine triple_ite _ (fun _ => triple_bind (release_keeps stable _) fun _ => ?_) fun _ => pure_keeps _
    exact triple_modify _ _ fun vm pre => stable.dictionary vm vm.dict _ pre

theorem dict_insert_keeps (key : Int64) (value : Value) : Keeps holds (modify (dictInsert key value)) :=
  triple_modify _ _ fun vm pre => stable.dictionary vm _ vm.dictBytes pre

theorem dict_put_keeps (instr : Instruction) : Keeps holds (dictPut instr) := by
  refine triple_bind (reading_keeps _) fun key => triple_bind (reading_keeps _) fun value => ?_
  refine triple_bind (reading_keeps _) fun newBytes => triple_bind get_keeps fun vm => ?_
  refine triple_bind (reading_keeps _) fun oldBytes => triple_bind (adjust_dict_quota_keeps stable _ _) fun _ => ?_
  refine triple_bind (triple_on_error (set_reg_keeps stable _ _) fun fault => ?_) fun _ => ?_
  · exact triple_bind (adjust_dict_quota_keeps stable _ _) fun _ => throw_keeps fault
  · exact dict_insert_keeps stable _ _

theorem dict_erase_keeps (instr : Instruction) : Keeps holds (dictErase instr) := by
  refine triple_bind (reading_keeps _) fun key => triple_bind (reading_keeps _) fun _ => ?_
  refine triple_bind get_keeps fun vm => ?_
  cases vm.dictLookup key with
  | none => exact set_reg_keeps stable _ _
  | some old =>
    have insert := dict_insert_keeps stable key old
    have remove : Keeps holds (modify (dictRemove key)) :=
      triple_modify _ _ fun vm pre => stable.dictionary vm _ vm.dictBytes pre
    refine triple_bind remove fun _ => triple_bind (reading_keeps _) fun oldBytes => ?_
    refine triple_bind (triple_on_error (adjust_dict_quota_keeps stable _ _) fun fault => ?_) fun _ => ?_
    · exact triple_bind insert fun _ => throw_keeps fault
    · refine triple_on_error (set_reg_keeps stable _ _) fun fault => ?_
      exact triple_bind insert fun _ =>
        triple_bind (adjust_dict_quota_keeps stable _ _) fun _ => throw_keeps fault

theorem fresh_request_id_keeps : Keeps holds freshRequestId := by
  refine triple_get_bind fun vm pre => ?_
  exact triple_ite _ (fun _ _ _ => stable.requestId vm _ pre) fun _ _ _ => stable.requestId vm _ pre

theorem scripted_keeps {γ : Type} {m : VmM γ} (scripted : Scripted γ m) : Keeps holds m := by
  refine built_keeps (fun γ m isAtom => ?_) scripted
  cases isAtom with
  | setReg reg value => exact set_reg_keeps stable reg value
  | dictPut instr => exact dict_put_keeps stable instr
  | dictErase instr => exact dict_erase_keeps stable instr
  | freshRequestId => exact fresh_request_id_keeps stable

end Keeps

structure FrameBlind (holds : Vm → Prop) : Prop extends Stable holds where
  frames : ∀ (vm : Vm) frames, holds vm → holds { vm with frames := frames }

section Blind

variable {holds : Vm → Prop} (blind : FrameBlind holds)

include blind

theorem frames_keeps (f : Vm → List Frame) : Keeps holds (modify fun vm => { vm with frames := f vm }) :=
  triple_modify _ _ fun vm pre => blind.frames vm _ pre

theorem jump_keeps (imm : Int32) : Keeps holds (applyRelativeJump imm) := by
  refine triple_bind get_keeps fun vm => triple_bind (reading_keeps _) fun frame => ?_
  exact triple_ite _ (fun _ => throw_keeps _) fun _ => set_top_keeps blind.toStable _

theorem branch_keeps (imm : Int32) (reg : UInt8) (taken : Value → Prop) [DecidablePred taken] :
    Keeps holds (do
      let value ← reading (getReg reg)
      if taken value then applyRelativeJump imm
      return (none : Option VmResult)) := by
  refine triple_bind (reading_keeps _) fun value => ?_
  exact triple_ite _ (fun _ => triple_bind (jump_keeps blind imm) fun _ => pure_keeps _) fun _ => pure_keeps _

theorem pop_frame_keeps (value : Value) : Keeps holds (popFrame value) := by
  refine triple_bind get_keeps fun vm => ?_
  cases vm.frames with
  | nil => exact throw_keeps _
  | cons finished below =>
    dsimp only
    cases finished.destReg with
    | some dest =>
      refine triple_bind (frames_keeps blind fun _ => below) fun _ => ?_
      refine triple_bind (release_keeps blind.toStable _) fun _ => ?_
      exact triple_bind (set_reg_keeps blind.toStable dest value) fun _ => pure_keeps _
    | none =>
      refine triple_bind (reading_keeps _) fun keep => ?_
      refine triple_bind (frames_keeps blind fun _ => below) fun _ => ?_
      exact triple_bind (release_keeps blind.toStable _) fun _ => pure_keeps _

theorem rollback_keeps {α : Type} (charged : Nat) (fault : Fault) : Keeps holds (rollback charged fault : VmM α) := by
  refine triple_ite _ (fun _ => ?_) fun _ => throw_keeps fault
  exact triple_bind (release_keeps blind.toStable charged) fun _ => throw_keeps fault

theorem charge_arg_keeps (charged : Nat) (frame : Frame) (value : Value) : Keeps holds (chargeArg charged frame value) := by
  have release := fun bytes => release_keeps blind.toStable bytes
  refine triple_bind get_keeps fun vm => triple_bind (reading_keeps _) fun bytes => ?_
  have charging := triple_on_error (charge_keeps blind.toStable bytes) fun fault => rollback_keeps blind charged fault
  refine triple_ite _ (fun _ => triple_bind charging fun _ => ?_) fun _ => pure_keeps _
  cases vm.layout.checkedAdd charged bytes with
  | none => exact triple_bind (release _) fun _ => triple_bind (release _) fun _ => throw_keeps _
  | some next =>
    dsimp only
    cases frame.tryAddHeapCharge vm.layout bytes with
    | none => exact triple_bind (release _) fun _ => throw_keeps _
    | some frame => exact pure_keeps _

theorem load_frame_args_charged_keeps (args : List Value) (i charged : Nat) (frame : Frame) :
    Keeps holds (loadFrameArgsChargedFrom i charged frame args) := by
  induction args generalizing i charged frame with
  | nil => exact pure_keeps _
  | cons value rest ih =>
    refine triple_bind (charge_arg_keeps blind charged frame value) fun loaded => ?_
    exact triple_ite _ (fun _ => ih _ _ _) fun _ => rollback_keeps blind _ _

theorem call_keeps (instr : Instruction) : Keeps holds (call instr) := by
  refine triple_bind get_keeps fun vm => triple_ite _ (fun _ => throw_keeps _) fun _ => ?_
  refine triple_bind (reading_keeps _) fun fn => triple_bind (reading_keeps _) fun args => ?_
  refine triple_bind (load_frame_args_charged_keeps blind _ _ _ _) fun frame => ?_
  exact frames_keeps blind fun vm => frame :: vm.frames

theorem tail_call_keeps (instr : Instruction) : Keeps holds (tailCall instr) := by
  refine triple_bind (reading_keeps _) fun fn => triple_bind (reading_keeps _) fun args => ?_
  refine triple_bind (reading_keeps _) fun finished => ?_
  refine triple_bind (frames_keeps blind fun vm => vm.frames.tail) fun _ => ?_
  refine triple_bind (release_keeps blind.toStable _) fun _ => ?_
  refine triple_bind (load_frame_args_charged_keeps blind _ _ _ _) fun frame => ?_
  exact frames_keeps blind fun vm => frame :: vm.frames

theorem fetch_keeps : Keeps holds fetch := by
  refine triple_bind (reading_keeps _) fun frame => triple_bind get_keeps fun vm => ?_
  cases vm.chunk.code[frame.pc]? with
  | none => exact pure_keeps _
  | some instr => exact triple_bind (set_top_keeps blind.toStable _) fun _ => pure_keeps _

theorem execute_keeps (instr : Instruction) : Keeps holds (execute instr) := by
  by_cases control : isControl instr.op = true
  · cases isOp : instr.op
    all_goals try exact absurd (isOp ▸ control) (by decide)
    all_goals simp only [execute, isOp]
    case jump =>
      exact triple_bind (jump_keeps blind instr.imm) fun _ => pure_keeps _
    case branch =>
      exact branch_keeps blind instr.imm instr.a fun value => value.isTruthy = false
    case branchTrue =>
      exact branch_keeps blind instr.imm instr.a fun value => value.isTruthy = true
    case call =>
      exact triple_bind (call_keeps blind instr) fun _ => pure_keeps _
    case tailCall =>
      exact triple_bind (tail_call_keeps blind instr) fun _ => pure_keeps _
    case ret =>
      exact triple_bind (reading_keeps _) fun value => pop_frame_keeps blind value
  · exact scripted_keeps blind.toStable (execute_scripted instr (Bool.eq_false_iff.mpr control))

end Blind

end Vm

end Byteflow
