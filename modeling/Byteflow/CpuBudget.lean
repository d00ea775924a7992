import Byteflow.Soundness
import Byteflow.VmKeeps

namespace Byteflow

open Exec

namespace Vm

theorem count_blind (count : Nat) : FrameBlind fun vm => vm.instructionsExecuted = count where
  top _ _ same := same
  accounts _ _ _ same := same
  dictionary _ _ _ same := same
  requestId _ _ same := same
  frames _ _ same := same

-- Every turn of the loop counts one, however it ends: an implicit return, a
-- fault, a result or the next turn.
theorem step_counts (vm : Vm) : (exec step vm).2.instructionsExecuted = vm.instructionsExecuted + 1 := by
  have blind := count_blind (vm.instructionsExecuted + 1)
  have kept : Ends (fun _ after => after.instructionsExecuted = vm.instructionsExecuted + 1)
      (fun _ after => after.instructionsExecuted = vm.instructionsExecuted + 1) (exec step vm) := by
    rw [step, exec_bind, exec_modify]
    refine triple_bind (fetch_keeps blind) (fun found => ?_) _ rfl
    cases found with
    | some instr => exact execute_keeps blind instr
    | none => exact pop_frame_keeps blind .unit
  revert kept
  rcases exec step vm with ⟨fault | result, after⟩ <;> exact fun counted => counted

theorem run_counts (budget : Nat) (vm : Vm) :
    (vm.run budget).2.instructionsExecuted = vm.instructionsExecuted + (vm.sliceSteps budget).length := by
  induction budget generalizing vm with
  | zero => rfl
  | succ budget ih =>
    have counted := step_counts vm
    rw [run, sliceSteps, List.length_cons]
    rcases stepped : exec step vm with ⟨fault | _ | result, next⟩
    · rw [stepped] at counted
      exact counted
    · rw [stepped] at counted
      dsimp only at counted ⊢
      rw [ih next, counted]
      omega
    · rw [stepped] at counted
      exact counted

theorem slice_steps_length (budget : Nat) (vm : Vm) : (vm.sliceSteps budget).length ≤ budget := by
  induction budget generalizing vm with
  | zero => exact le_rfl
  | succ budget ih =>
    rw [sliceSteps, List.length_cons]
    rcases exec step vm with ⟨fault | _ | result, next⟩
    · exact Nat.succ_le_succ (Nat.zero_le budget)
    · exact Nat.succ_le_succ (ih next)
    · exact Nat.succ_le_succ (Nat.zero_le budget)

theorem slice_steps_count (budget : Nat) {vm before : Vm} {turns : Nat} (found : (vm.sliceSteps budget)[turns]? = some before) :
    before.instructionsExecuted = vm.instructionsExecuted + turns := by
  induction budget generalizing vm turns with
  | zero => simp [sliceSteps] at found
  | succ budget ih =>
    have counted := step_counts vm
    rw [sliceSteps] at found
    cases turns with
    | zero =>
      cases found
      rfl
    | succ turns =>
      rw [List.getElem?_cons_succ] at found
      rcases stepped : exec step vm with ⟨fault | _ | result, next⟩
      · simp [stepped] at found
      · rw [stepped] at counted found
        have := ih found
        dsimp only at counted
        omega
      · simp [stepped] at found

end Vm

def cpuExhausted : String := "flow CPU budget exhausted"

def remainingCpu (cpuBudget : Int64) : Int64 := max cpuBudget 0

def chargeCpu (cpuBudget cost : Int64) : Except String Int64 :=
  if cpuBudget < cost then .error cpuExhausted else .ok (cpuBudget - cost)

def saturatingAdd (a b : Int64) : Int64 :=
  Int64.ofInt (max (-2 ^ 63) (min (a.toInt + b.toInt) (2 ^ 63 - 1)))

def topUpCpu (cpuBudget extra : Int64) : Int64 := if extra ≤ 0 then cpuBudget else saturatingAdd cpuBudget extra

theorem remaining_cpu_positive {cpuBudget : Int64} (some_ : ¬ remainingCpu cpuBudget ≤ 0) :
    remainingCpu cpuBudget = cpuBudget ∧ 0 < cpuBudget.toInt := by
  have zero : (0 : Int64).toInt = 0 := rfl
  have isMax : remainingCpu cpuBudget = if cpuBudget ≤ 0 then 0 else cpuBudget := rfl
  rw [isMax] at some_ ⊢
  by_cases nothing : cpuBudget ≤ 0
  · rw [if_pos nothing, Int64.le_iff_toInt_le] at some_
    omega
  · rw [if_neg nothing]
    rw [Int64.le_iff_toInt_le] at nothing
    exact ⟨rfl, by omega⟩

theorem min_to_int (a b : Int64) : (min a b).toInt ≤ a.toInt ∧ (min a b).toInt ≤ b.toInt := by
  have isMin : min a b = if a ≤ b then a else b := rfl
  rw [isMin]
  by_cases below : a ≤ b
  · rw [if_pos below]
    exact ⟨le_rfl, Int64.le_iff_toInt_le.mp below⟩
  · rw [if_neg below]
    rw [Int64.le_iff_toInt_le] at below
    exact ⟨by omega, le_rfl⟩

theorem charge_cpu_covered {cpuBudget cost : Int64} (covered : cost.toInt ≤ cpuBudget.toInt) (positive : 0 ≤ cost.toInt) :
    ∃ left, chargeCpu cpuBudget cost = .ok left ∧ left.toInt = cpuBudget.toInt - cost.toInt := by
  have enough : ¬ cpuBudget < cost := by
    rw [Int64.lt_iff_toInt_lt]
    omega
  refine ⟨_, by rw [chargeCpu, if_neg enough], ?_⟩
  have bound := cpuBudget.toInt_lt
  rw [Int64.toInt_sub]
  exact Int.bmod_eq_of_le (by omega) (by omega)

theorem top_up_cpu_bounds (cpuBudget extra : Int64) :
    cpuBudget.toInt ≤ (topUpCpu cpuBudget extra).toInt ∧
      (topUpCpu cpuBudget extra).toInt ≤ cpuBudget.toInt + max extra.toInt 0 := by
  have low := cpuBudget.le_toInt
  have high := cpuBudget.toInt_lt
  by_cases ignored : extra ≤ 0
  · rw [topUpCpu, if_pos ignored]
    omega
  · rw [topUpCpu, if_neg ignored, saturatingAdd, Int64.toInt_ofInt_of_le (by omega) (by omega)]
    rw [Int64.le_iff_toInt_le] at ignored
    have zero : (0 : Int64).toInt = 0 := rfl
    omega

-- How far drive_process has got with a flow. Everything between two slices,
-- parked or queued or running an effect, is ready.
inductive CpuStage where
  | ready
  | granted (slice : Nat)
  | sliced (before : Nat) (result : Option (Except Fault VmResult))
  | stopped
  | exhausted (message : String)
  | refused (message : String)

def CpuStage.isRefused : CpuStage → Bool
  | .refused _ => true
  | _ => false

-- executed counts the turns of the loop in run; no code reads it.
structure CpuFlow where
  vm : Vm
  cpuBudget : Int64
  stage : CpuStage
  executed : Nat

inductive CpuEvent where
  | grant
  | runSlice
  | panic (turns : Nat)
  | charge
  | topUp (extra : Int64)
  | deliver (destReg : UInt8) (value : Value)
  | environment (quota : Option FlowQuota) (memory : Option MemoryBudget) (nativeGate : NativeGate)

namespace CpuFlow

def start (vm : Vm) (cpuBudget : Int64) : CpuFlow := ⟨vm, cpuBudget, .ready, 0⟩

def afterSlice : Option (Except Fault VmResult) → CpuStage
  | none => .stopped
  | some (.error _) => .stopped
  | some (.ok (.complete _)) => .stopped
  | some (.ok _) => .ready

-- The casts of the source keep the values: the slice is at most the quantum,
-- which is a u32, and the cost at most the slice. An event that is not due
-- changes nothing.
def handle (quantum : UInt32) (flow : CpuFlow) : CpuEvent → CpuFlow
  | .grant =>
    match flow.stage with
    | .ready =>
      let remaining := remainingCpu flow.cpuBudget
      if remaining ≤ 0 then { flow with stage := .exhausted cpuExhausted }
      else { flow with stage := .granted (min (Int64.ofNat quantum.toNat) remaining).toInt.toNat }
    | _ => flow
  | .runSlice =>
    match flow.stage with
    | .granted slice =>
      { flow with
        vm := (flow.vm.run slice).2
        stage := .sliced flow.vm.instructionsExecuted (some (flow.vm.run slice).1)
        executed := flow.executed + (flow.vm.sliceSteps slice).length }
    | _ => flow
  -- A native panics in the instruction that follows the given number of turns.
  | .panic turns =>
    match flow.stage with
    | .granted slice =>
      match (flow.vm.sliceSteps slice)[turns]? with
      | some unwound =>
        { flow with
          vm := { unwound with instructionsExecuted := unwound.instructionsExecuted + 1 }
          stage := .sliced flow.vm.instructionsExecuted none
          executed := flow.executed + (turns + 1) }
      | none => flow
    | _ => flow
  | .charge =>
    match flow.stage with
    | .sliced before result =>
      match chargeCpu flow.cpuBudget (Int64.ofNat (flow.vm.instructionsExecuted - before)) with
      | .error message => { flow with stage := .refused message }
      | .ok cpuBudget => { flow with cpuBudget := cpuBudget, stage := afterSlice result }
    | _ => flow
  | .topUp extra => { flow with cpuBudget := topUpCpu flow.cpuBudget extra }
  | .deliver destReg value =>
    match flow.stage with
    | .ready =>
      match exec (Vm.resumeWith destReg value) flow.vm with
      | (.error _, vm) => { flow with vm := vm, stage := .stopped }
      | (.ok _, vm) => { flow with vm := vm }
    | _ => flow
  | .environment quota memory nativeGate =>
    { flow with vm := { flow.vm with quota := quota, memory := memory, nativeGate := nativeGate } }

def credit : CpuEvent → Int
  | .topUp extra => max extra.toInt 0
  | _ => 0

def credits (events : List CpuEvent) : Int := (events.map credit).sum

def unpaid (flow : CpuFlow) : Nat :=
  match flow.stage with
  | .sliced before _ => flow.vm.instructionsExecuted - before
  | _ => 0

def owed (flow : CpuFlow) : Nat :=
  match flow.stage with
  | .granted slice => slice
  | _ => flow.unpaid

def inSlice (flow : CpuFlow) : Bool :=
  match flow.stage with
  | .granted _ => true
  | .sliced _ _ => true
  | _ => false

structure Solvent (bound : Int) (flow : CpuFlow) : Prop where
  accepted : flow.stage.isRefused = false
  paid : (flow.executed : Int) + flow.cpuBudget.toInt ≤ bound + flow.unpaid
  -- A flow whose budget was never positive has executed nothing.
  covered : (flow.owed : Int) ≤ flow.cpuBudget.toInt ∨ flow.inSlice = false ∧ flow.executed = 0
  small : flow.owed < 2 ^ 32

section Steps

variable {bound : Int} {flow : CpuFlow}

theorem idle_owes (idle : flow.inSlice = false) : flow.owed = 0 ∧ flow.unpaid = 0 := by
  cases stage : flow.stage <;> simp [inSlice, owed, unpaid, stage] at idle ⊢

theorem solvent_idle_iff (idle : flow.inSlice = false) (accepted : flow.stage.isRefused = false) :
    Solvent bound flow ↔
      (flow.executed : Int) + flow.cpuBudget.toInt ≤ bound ∧ (0 ≤ flow.cpuBudget.toInt ∨ flow.executed = 0) := by
  obtain ⟨owes, pays⟩ := idle_owes idle
  constructor
  · intro solvent
    have paid := solvent.paid
    have covered := solvent.covered
    omega
  · rintro ⟨paid, covered⟩
    refine ⟨accepted, by omega, ?_, by omega⟩
    exact covered.imp (fun positive => by omega) fun nothing => ⟨idle, nothing⟩

theorem solvent_grant (quantum : UInt32) (solvent : Solvent bound flow) : Solvent bound (flow.handle quantum .grant) := by
  cases stage : flow.stage with
  | ready =>
    obtain ⟨paid, covered⟩ := (solvent_idle_iff (by rw [inSlice, stage]) solvent.accepted).mp solvent
    simp only [handle, stage]
    by_cases nothing : remainingCpu flow.cpuBudget ≤ 0
    · rw [if_pos nothing]
      exact (solvent_idle_iff rfl rfl).mpr ⟨paid, covered⟩
    · rw [if_neg nothing]
      obtain ⟨isBudget, positive⟩ := remaining_cpu_positive nothing
      obtain ⟨quantumBound, budgetBound⟩ := min_to_int (Int64.ofNat quantum.toNat) (remainingCpu flow.cpuBudget)
      have word := quantum.toNat_lt
      rw [Int64.toInt_ofNat_of_lt (by omega)] at quantumBound
      rw [isBudget] at budgetBound quantumBound ⊢
      refine ⟨rfl, ?_, Or.inl ?_, ?_⟩
      · simpa [unpaid] using paid
      · simp only [owed]
        omega
      · simp only [owed]
        omega
  | _ => simpa only [handle, stage] using solvent

theorem solvent_sliced {slice turns : Nat} (solvent : Solvent bound flow) (stage : flow.stage = .granted slice) {vm : Vm}
    (counted : vm.instructionsExecuted = flow.vm.instructionsExecuted + turns) (within : turns ≤ slice)
    (result : Option (Except Fault VmResult)) :
    Solvent bound { flow with
      vm := vm, stage := .sliced flow.vm.instructionsExecuted result, executed := flow.executed + turns } := by
  have paid := solvent.paid
  have covered := solvent.covered.resolve_right fun idle => by simp [inSlice, stage] at idle
  have small := solvent.small
  simp only [owed, unpaid, stage] at paid covered small
  refine ⟨rfl, ?_, Or.inl ?_, ?_⟩
  · simp only [unpaid]
    omega
  · simp only [owed, unpaid]
    omega
  · simp only [owed, unpaid]
    omega

theorem solvent_run_slice (quantum : UInt32) (solvent : Solvent bound flow) : Solvent bound (flow.handle quantum .runSlice) := by
  cases stage : flow.stage with
  | granted slice =>
    simp only [handle, stage]
    exact solvent_sliced solvent stage (flow.vm.run_counts slice) (flow.vm.slice_steps_length slice) _
  | _ => simpa only [handle, stage] using solvent

theorem solvent_panic (quantum : UInt32) (turns : Nat) (solvent : Solvent bound flow) :
    Solvent bound (flow.handle quantum (.panic turns)) := by
  cases stage : flow.stage with
  | granted slice =>
    simp only [handle, stage]
    cases found : (flow.vm.sliceSteps slice)[turns]? with
    | none => exact solvent
    | some unwound =>
      have inside := (List.getElem?_eq_some_iff.mp found).1
      have counted : unwound.instructionsExecuted + 1 = flow.vm.instructionsExecuted + (turns + 1) := by
        rw [Vm.slice_steps_count slice found, Nat.add_assoc]
      exact solvent_sliced solvent stage counted (inside.trans_le (flow.vm.slice_steps_length slice)) none
  | _ => simpa only [handle, stage] using solvent

theorem after_slice_idle (flow : CpuFlow) (result : Option (Except Fault VmResult)) (cpuBudget : Int64) :
    inSlice { flow with cpuBudget := cpuBudget, stage := afterSlice result } = false ∧
      (afterSlice result).isRefused = false := by
  rcases result with _ | fault | result
  · exact ⟨rfl, rfl⟩
  · exact ⟨rfl, rfl⟩
  · cases result <;> exact ⟨rfl, rfl⟩

theorem solvent_charge (quantum : UInt32) (solvent : Solvent bound flow) : Solvent bound (flow.handle quantum .charge) := by
  cases stage : flow.stage with
  | sliced before result =>
    have paid := solvent.paid
    have small := solvent.small
    have covered := solvent.covered.resolve_right fun idle => by simp [inSlice, stage] at idle
    simp only [owed, unpaid, stage] at paid covered small
    have cost : (Int64.ofNat (flow.vm.instructionsExecuted - before)).toInt =
        ((flow.vm.instructionsExecuted - before : Nat) : Int) := Int64.toInt_ofNat_of_lt (by omega)
    rw [← cost] at covered
    obtain ⟨left, charged, isLeft⟩ := charge_cpu_covered covered (by omega)
    obtain ⟨idle, accepted⟩ := after_slice_idle flow result left
    simp only [handle, stage, charged]
    refine (solvent_idle_iff idle accepted).mpr ?_
    dsimp only
    omega
  | _ => simpa only [handle, stage] using solvent

theorem solvent_top_up (quantum : UInt32) (extra : Int64) (solvent : Solvent bound flow) :
    Solvent (bound + max extra.toInt 0) (flow.handle quantum (.topUp extra)) := by
  obtain ⟨raised, limited⟩ := top_up_cpu_bounds flow.cpuBudget extra
  have paid := solvent.paid
  have covered := solvent.covered
  refine ⟨solvent.accepted, ?_, ?_, solvent.small⟩
  · change (flow.executed : Int) + (topUpCpu flow.cpuBudget extra).toInt ≤ bound + max extra.toInt 0 + flow.unpaid
    omega
  · exact covered.imp_left fun enough => enough.trans raised

theorem solvent_deliver (quantum : UInt32) (destReg : UInt8) (value : Value) (solvent : Solvent bound flow) :
    Solvent bound (flow.handle quantum (.deliver destReg value)) := by
  cases stage : flow.stage with
  | ready =>
    have balance := (solvent_idle_iff (by rw [inSlice, stage]) solvent.accepted).mp solvent
    simp only [handle, stage]
    rcases exec (Vm.resumeWith destReg value) flow.vm with ⟨fault | _, vm⟩
    · exact (solvent_idle_iff rfl rfl).mpr balance
    · exact (solvent_idle_iff rfl rfl).mpr balance
  | _ => simpa only [handle, stage] using solvent

theorem solvent_handle (quantum : UInt32) (event : CpuEvent) (solvent : Solvent bound flow) :
    Solvent (bound + credit event) (flow.handle quantum event) := by
  cases event with
  | topUp extra => exact solvent_top_up quantum extra solvent
  | grant => simpa only [credit, Int.add_zero] using solvent_grant quantum solvent
  | runSlice => simpa only [credit, Int.add_zero] using solvent_run_slice quantum solvent
  | panic turns => simpa only [credit, Int.add_zero] using solvent_panic quantum turns solvent
  | charge => simpa only [credit, Int.add_zero] using solvent_charge quantum solvent
  | deliver destReg value => simpa only [credit, Int.add_zero] using solvent_deliver quantum destReg value solvent
  | environment quota memory nativeGate =>
    simp only [credit, Int.add_zero]
    exact ⟨solvent.accepted, solvent.paid, solvent.covered, solvent.small⟩

theorem solvent_run (quantum : UInt32) (events : List CpuEvent) (solvent : Solvent bound flow) :
    Solvent (bound + credits events) (events.foldl (handle quantum) flow) := by
  induction events generalizing bound flow with
  | nil => simpa [credits] using solvent
  | cons event rest ih =>
    have rest := ih (solvent_handle quantum event solvent)
    simpa [credits, Int.add_assoc] using rest

theorem solvent_start (vm : Vm) (cpuBudget : Int64) : Solvent cpuBudget.toInt (start vm cpuBudget) where
  accepted := rfl
  paid := by simp [start, unpaid]
  covered := Or.inr ⟨rfl, rfl⟩
  small := Nat.two_pow_pos 32

end Steps

theorem cpu_budget_bounds (quantum : UInt32) (vm : Vm) (initial : Int64) (events : List CpuEvent) :
    (events.foldl (handle quantum) (start vm initial)).stage.isRefused = false ∧
      ((events.foldl (handle quantum) (start vm initial)).executed : Int) ≤ max (initial.toInt + credits events) 0 := by
  have solvent := solvent_run quantum events (solvent_start vm initial)
  generalize events.foldl (handle quantum) (start vm initial) = flow at solvent
  refine ⟨solvent.accepted, ?_⟩
  have paid := solvent.paid
  have unpaidOwed : flow.unpaid ≤ flow.owed := by
    unfold owed
    cases stage : flow.stage with
    | granted slice => simp [unpaid, stage]
    | _ => exact le_rfl
  rcases solvent.covered with covered | ⟨_, nothing⟩ <;> omega

end CpuFlow

end Byteflow
