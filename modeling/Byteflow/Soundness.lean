import Byteflow.Stack

namespace Byteflow

open List

namespace Vm

open Exec

def nextInstruction (vm : Vm) : Option Instruction :=
  match vm.frames with
  | [] => none
  | frame :: _ => vm.chunk.code[frame.pc]?

-- StartChild looks its function up under u32::try_from(imm), which is
-- u32::MAX for a negative immediate, while the verifier has checked imm as u32.
def ChildIndexFits (vm : Vm) : Prop :=
  ∀ instr, vm.nextInstruction = some instr → instr.op = .startChild →
    0 ≤ instr.imm.toInt ∨ 2 ^ 32 ≤ vm.chunk.functions.length

instance (vm : Vm) : Decidable vm.ChildIndexFits :=
  decidable_of_iff (∀ instr ∈ vm.nextInstruction.toList, instr.op = .startChild →
    0 ≤ instr.imm.toInt ∨ 2 ^ 32 ≤ vm.chunk.functions.length) (by simp [ChildIndexFits])

theorem imm_to_u32_nonneg (imm : Int32) (nonneg : 0 ≤ imm.toInt) : imm.toUInt32.toNat = imm.toInt.toNat := by
  have value : imm.toInt = imm.toBitVec.toInt := rfl
  have bits : imm.toUInt32.toNat = imm.toBitVec.toNat := rfl
  have cond := BitVec.toInt_eq_toNat_cond imm.toBitVec
  rw [value] at nonneg ⊢
  rw [bits]
  split at cond <;> omega

theorem child_index_nonneg (imm : Int32) (nonneg : 0 ≤ imm.toInt) : childIndex imm = imm.toUInt32 := by
  have same : UInt32.ofNat imm.toInt.toNat = imm.toUInt32 := by
    rw [← imm_to_u32_nonneg imm nonneg, UInt32.ofNat_toNat]
  simp only [childIndex, u32TryFrom, if_pos nonneg, Option.getD_some, same]

theorem child_index_negative (imm : Int32) (negative : ¬ 0 ≤ imm.toInt) : childIndex imm = 0xFFFFFFFF := by
  simp only [childIndex, u32TryFrom, if_neg negative, Option.getD_none]

-- For a verified StartChild the lookup succeeds exactly when the two readings agree or the table is full.
theorem child_known_iff {chunk : Chunk} {pc : Nat} {instr : Instruction} (verified : Verified chunk)
    (found : chunk.code[pc]? = some instr) (isOp : instr.op = .startChild) :
    (chunk.function (childIndex instr.imm)).isSome ↔
      0 ≤ instr.imm.toInt ∨ 2 ^ 32 ≤ chunk.functions.length := by
  obtain ⟨child, row, _⟩ := verified_start_child verified found isOp
  by_cases nonneg : 0 ≤ instr.imm.toInt
  · rw [child_index_nonneg instr.imm nonneg, row]
    simp [nonneg]
  · rw [child_index_negative instr.imm nonneg, Chunk.function]
    simp only [isSome_getElem?, nonneg, false_or]
    change 4294967295 < chunk.functions.length ↔ 4294967296 ≤ chunk.functions.length
    omega

section Step

variable {chunk : Chunk} {shape : Shape} {top : FrameShape} {below : List FrameShape} {instr : Instruction}
  {fn : FunctionDef}

theorem execute_continues (at_ : AtInstruction chunk shape top below fn instr)
    (child : instr.op = .startChild → (chunk.function (childIndex instr.imm)).isSome) :
    Triple (fun vm => vm.shape = fetched shape top below) (execute instr) (Continues chunk) (Faults chunk) := by
  by_cases control : isControl instr.op = true
  · cases isOp : instr.op
    case jump => simpa only [execute, isOp] using jump_continues at_ (Or.inl isOp)
    case branch => simpa only [execute, isOp] using branch_continues at_ (Or.inl isOp) false
    case branchTrue => simpa only [execute, isOp] using branch_continues at_ (Or.inr isOp) true
    case call => simpa only [execute, isOp] using call_continues at_ isOp
    case tailCall => simpa only [execute, isOp] using tail_call_continues at_ isOp
    case ret => simpa only [execute, isOp] using return_continues at_
    all_goals simp [isOp, isControl] at control
  by_cases ends : isTerminator instr.op = true
  · cases isOp : instr.op
    case halt => simpa only [execute, isOp] using complete_continues at_ 0
    case exit => simpa only [execute, isOp] using complete_continues at_ instr.a
    case trap =>
      simp only [execute, isOp]
      exact triple_throw _ fun vm shaped => ⟨rfl, shaped ▸ fetched_resting at_⟩
    case jump | tailCall | ret => simp [isOp, isControl] at control
    all_goals simp [isOp, isTerminator] at ends
  · -- Every other opcode leaves the stack as the fetch left it.
    have next := fetched_running at_ (by simpa using ends)
    have operands := verified_operands at_.verified (function_mem at_.known) at_.inside at_.found
    have steady := (execute_acts chunk instr (by simpa using control)).steady ⟨operands, child⟩
    have kept := steady_triple steady ⟨running_ready next, next.sameChunk⟩ [fetched shape top below]
      (mem_singleton.mpr rfl)
    refine triple_consequence (triple_faults kept fun other member => ?_) (fun _ shaped => shaped)
      (fun _ _ shaped => running_continues (shaped ▸ next)) fun _ _ faulted => faulted
    rw [mem_singleton.mp member]
    exact fetched_resting at_

theorem at_instruction (verified : Verified chunk) (running : Running chunk shape) (frames : shape.frames = top :: below)
    (found : chunk.code[top.pc]? = some instr) : ∃ fn, AtInstruction chunk shape top below fn instr := by
  obtain ⟨fn, known, size, runnable⟩ := running.standing top (by rw [frames]; exact mem_cons_self)
  have inside := runnable.resolve_right fun atEnd => by simp [atEnd] at found
  exact ⟨fn, verified, running, frames, known, size, inside, found⟩

structure Fetched (chunk : Chunk) (before : Vm) (frame : Frame) (below : List Frame) (fn : FunctionDef) (instr : Instruction) :
    Prop where
  frames : before.frames = frame :: below
  stepped : exec step before = exec (execute instr) (before.advanced frame below)
  at_ : AtInstruction chunk before.shape frame.shape (below.map Frame.shape) fn instr

theorem step_fetched (verified : Verified chunk) {before : Vm} (running : Running chunk before.shape)
    (fetching : before.nextInstruction = some instr) : ∃ frame below fn, Fetched chunk before frame below fn instr := by
  obtain ⟨top, rest, shapes⟩ := exists_cons_of_ne_nil running.active
  obtain ⟨frame, below, frames, rfl, rfl⟩ := shape_cons rfl shapes
  rw [nextInstruction, frames] at fetching
  have sameChunk : before.chunk = chunk := running.sameChunk
  obtain ⟨fn, at_⟩ := at_instruction verified running shapes (sameChunk ▸ fetching)
  exact ⟨frame, below, fn, frames, exec_step_some frames fetching, at_⟩

-- Fell off the end of the code: the implicit return.
theorem step_returns {before : Vm} (running : Running chunk before.shape) (missing : before.nextInstruction = none) :
    ∃ frame below, before.frames = frame :: below ∧
      exec step before = exec (popFrame .unit) { before with instructionsExecuted := before.instructionsExecuted + 1 } := by
  obtain ⟨top, rest, shapes⟩ := exists_cons_of_ne_nil running.active
  obtain ⟨frame, below, frames, rfl, rfl⟩ := shape_cons rfl shapes
  rw [nextInstruction, frames] at missing
  exact ⟨frame, below, frames, exec_step_none frames missing⟩

theorem step_continues (verified : Verified chunk) (vm : Vm) (running : Running chunk vm.shape)
    (fits : vm.ChildIndexFits) : Ends (Continues chunk) (Faults chunk) (exec step vm) := by
  cases fetching : vm.nextInstruction with
  | none =>
    obtain ⟨frame, below, frames, stepped⟩ := step_returns running fetching
    have shapes : vm.shape.frames = frame.shape :: below.map Frame.shape := congrArg (map Frame.shape) frames
    rw [stepped]
    refine pop_frame_continues .unit (stack_ok_weaken running.toStackOk) running.natives shapes (fun top member => ?_) _ rfl
    exact running.standing top (by rw [shapes]; exact mem_cons_of_mem _ member)
  | some instr =>
    obtain ⟨frame, below, fn, fetched⟩ := step_fetched verified running fetching
    rw [fetched.stepped]
    refine execute_continues fetched.at_ (fun isOp => (child_known_iff verified fetched.at_.found isOp).mpr ?_) _ rfl
    have sameChunk : vm.chunk = chunk := running.sameChunk
    exact sameChunk ▸ fits instr fetching isOp

def Breaks (fault : Fault) (_ : Vm) : Prop := fault.isStructural = true

theorem start_child_breaks (at_ : AtInstruction chunk shape top below fn instr) (isOp : instr.op = .startChild)
    (missing : (chunk.function (childIndex instr.imm)).isNone) :
    Triple (fun vm => vm.shape = fetched shape top below) (execute instr) (fun _ _ => False) Breaks := by
  simp only [execute, isOp]
  refine triple_get_bind fun vm shaped => ?_
  have sameChunk : vm.chunk = chunk := (shape_chunk shaped).trans (fetched_resting at_).sameChunk
  rw [sameChunk, if_pos (by simpa [childIndex] using missing)]
  exact triple_throw _ fun _ _ => rfl

theorem step_breaks (verified : Verified chunk) (vm : Vm) (running : Running chunk vm.shape)
    (unfit : ¬ vm.ChildIndexFits) : Ends (fun _ _ => False) Breaks (exec step vm) := by
  simp only [ChildIndexFits, not_forall] at unfit
  obtain ⟨instr, fetching, isOp, unfit⟩ := unfit
  obtain ⟨frame, below, fn, fetched⟩ := step_fetched verified running fetching
  rw [show vm.chunk = chunk from running.sameChunk] at unfit
  have missing : (chunk.function (childIndex instr.imm)).isNone := by
    simpa using mt (child_known_iff verified fetched.at_.found isOp).mp unfit
  rw [fetched.stepped]
  exact start_child_breaks fetched.at_ isOp missing _ rfl

end Step

def sliceSteps : Nat → Vm → List Vm
  | 0, _ => []
  | budget + 1, vm =>
    vm :: (match exec step vm with
      | (.ok none, next) => sliceSteps budget next
      | _ => [])

def SliceEnds (chunk : Chunk) : Except Fault VmResult × Vm → Prop
  | (.error fault, vm) => Faults chunk fault vm
  | (.ok (.complete _), vm) => Resting chunk vm.shape
  | (.ok _, vm) => Running chunk vm.shape

theorem slice_ends_of_running {chunk : Chunk} {result : VmResult} {vm : Vm} (running : Running chunk vm.shape) :
    SliceEnds chunk (.ok result, vm) := by
  cases result <;> first | exact running | exact stack_ok_weaken running.toStackOk

theorem run_ends {chunk : Chunk} (verified : Verified chunk) (budget : Nat) (vm : Vm) (running : Running chunk vm.shape) :
    (∀ before ∈ sliceSteps budget vm, before.ChildIndexFits) ∧ SliceEnds chunk (vm.run budget) ∨
      (¬ ∀ before ∈ sliceSteps budget vm, before.ChildIndexFits) ∧
        ∃ fault after, vm.run budget = (.error fault, after) ∧ fault.isStructural = true := by
  induction budget generalizing vm with
  | zero => exact Or.inl ⟨forall_mem_nil _, running⟩
  | succ budget ih =>
    rw [run, sliceSteps]
    by_cases fits : vm.ChildIndexFits
    · have stepped := step_continues verified vm running fits
      rcases taken : exec step vm with ⟨fault | _ | result, next⟩ <;> rw [taken] at stepped
      · exact Or.inl ⟨forall_mem_singleton.mpr fits, stepped⟩
      · rcases stepped with going | ⟨_, _, done⟩
        · rcases ih next going with ⟨all, ends⟩ | ⟨unfit, breaks⟩
          · exact Or.inl ⟨forall_mem_cons.mpr ⟨fits, all⟩, ends⟩
          · exact Or.inr ⟨fun all => unfit (forall_mem_cons.mp all).2, breaks⟩
        · cases done
      · refine Or.inl ⟨forall_mem_singleton.mpr fits, ?_⟩
        rcases stepped with going | ⟨resting, value, done⟩
        · exact slice_ends_of_running going
        · cases done
          exact resting
    · have stepped := step_breaks verified vm running fits
      refine Or.inr ⟨fun all => fits (all vm mem_cons_self), ?_⟩
      rcases taken : exec step vm with ⟨fault | result, next⟩ <;> rw [taken] at stepped
      · exact ⟨fault, next, rfl, stepped⟩
      · exact stepped.elim

end Vm

end Byteflow
