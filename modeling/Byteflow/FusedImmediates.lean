import Byteflow.HeapCharge

namespace Byteflow

def Opcode.expansion : Opcode → Option Opcode
  | .addImm => some .add
  | .subImm => some .sub
  | .mulImm => some .mul
  | .eqImm => some .eq
  | .neImm => some .ne
  | .ltImm => some .lt
  | .leImm => some .le
  | .gtImm => some .gt
  | .geImm => some .ge
  | _ => none

namespace Vm

open Exec

def withReg (vm : Vm) (reg : UInt8) (value : Value) : Vm :=
  match vm.frames with
  | [] => vm
  | frame :: _ => vm.setTop (frame.write reg.toNat value)

def combine (op : Opcode) (dst src : UInt8) (imm : Int32) : VmM (Option VmResult) := do
  let value ← reading (getReg src)
  let result ← reading fun _ => numericOp op value (.int imm.toInt64)
  setReg dst result
  return none

section Fused

variable {vm : Vm} {frame : Frame} {rest : List Frame} {op fused : Opcode} {dst src fresh : UInt8} {imm : Int32}

theorem get_reg_other (top : vm.frames = frame :: rest) {reg other : UInt8} (apart : other ≠ reg) (value : Value) :
    (vm.withReg other value).getReg reg = vm.getReg reg := by
  have indexes : other.toNat ≠ reg.toNat := fun same => apart (UInt8.toNat_inj.mp same)
  simp [withReg, getReg, current, top, setTop, Frame.write, List.getElem?_set_ne indexes, Frame.frameSize, bind, Except.bind]

theorem get_reg_written (top : vm.frames = frame :: rest) {reg : UInt8} {old : Value} (found : vm.getReg reg = .ok old)
    (value : Value) : (vm.withReg reg value).getReg reg = .ok value := by
  have inside : reg.toNat < frame.registers.length := by
    by_contra beyond
    simp [getReg, current, top, List.getElem?_eq_none (Nat.le_of_not_lt beyond), bind, Except.bind] at found
  simp [withReg, getReg, current, top, setTop, Frame.write, inside, bind, Except.bind]

theorem combine_read {value : Value} (found : vm.getReg src = .ok value) : exec (combine op dst src imm) vm =
    match numericOp op value (.int imm.toInt64) with
      | .error fault => (.error fault, vm)
      | .ok result => exec (do setReg dst result; return none) vm := by
  rw [combine, exec_bind, exec_reading, found]
  dsimp only
  rw [exec_bind, exec_reading]
  cases numericOp op value (.int imm.toInt64) <;> rfl

-- add, sub, mul and the ordered comparisons: an int is combined with the
-- immediate, anything else but a float is refused with the same fault.
theorem numeric_imm_combines {onInt : Int64 → Int64 → Value} {onFloat : F64 → F64 → Value}
    (ints : ∀ x y, numericOp op (.int x) (.int y) = .ok (onInt x y))
    (others : ∀ value y, asF64 value = .error (.typeMismatch "int or float" value.typeName) →
      numericOp op value (.int y) = .error (.typeMismatch "int or float" value.typeName))
    (plain : ∀ x, vm.getReg src ≠ .ok (.float x)) :
    exec (do numericImm onInt onFloat dst src imm; return none) vm = exec (combine op dst src imm) vm := by
  rw [numericImm, bind_assoc, exec_bind, exec_reading]
  cases found : vm.getReg src with
  | error fault => rw [combine, exec_bind, exec_reading, found]
  | ok value =>
    rw [combine_read found]
    cases value with
    | int x => rw [ints]
    | float x => exact absurd found (plain x)
    | _ =>
      rw [others _ _ rfl]
      rfl

theorem equals_imm (value : Value) : equalsImm value imm = value.eq (.int imm.toInt64) := by
  cases value <;> simp [equalsImm, Value.eq]

theorem equality_imm_combines (agrees : Value → Bool)
    (same : ∀ value, numericOp op value (.int imm.toInt64) = .ok (.bool (agrees value))) :
    exec (do (do let value ← reading (getReg src); setReg dst (.bool (agrees value))); return none) vm =
      exec (combine op dst src imm) vm := by
  rw [bind_assoc, exec_bind, exec_reading]
  cases found : vm.getReg src with
  | error fault => rw [combine, exec_bind, exec_reading, found]
  | ok value => rw [combine_read found, same]

theorem fused_combines {c : UInt8} (known : fused.expansion = some op) (plain : ∀ x, vm.getReg src ≠ .ok (.float x)) :
    exec (execute ⟨fused, dst, src, c, imm⟩) vm = exec (combine op dst src imm) vm := by
  cases fused <;> cases known
  case eqImm => exact equality_imm_combines (equalsImm · imm) fun value => by rw [equals_imm]; rfl
  case neImm => exact equality_imm_combines (fun value => !equalsImm value imm) fun value => by rw [equals_imm]; rfl
  all_goals
    refine numeric_imm_combines (fun _ _ => rfl) (fun value y refused => ?_) plain
    cases value <;> first | rfl | cases refused

theorem general_combines (known : fused.expansion = some op) {given : Int32}
    (loaded : vm.getReg fresh = .ok (.int imm.toInt64)) :
    exec (execute ⟨op, dst, src, fresh, given⟩) vm = exec (combine op dst src imm) vm := by
  have numeric : execute ⟨op, dst, src, fresh, given⟩ = (do numericBinop op dst src fresh; return none) := by
    cases fused <;> cases known <;> rfl
  rw [numeric]
  simp only [numericBinop, combine, bind_assoc, exec_bind, exec_reading]
  cases vm.getReg src with
  | error fault => rfl
  | ok value => simp only [loaded]

theorem combined_scalar (known : fused.expansion = some op) {value result : Value}
    (done : numericOp op value (.int imm.toInt64) = .ok result) : result.isScalar = true := by
  cases fused <;> cases known <;> cases value <;>
    simp [numericOp, asF64, bind, Except.bind] at done <;> subst done <;> rfl

-- A scalar is stored without a charge: the old charge is given back.
theorem set_scalar (top : vm.frames = frame :: rest) {old value : Value} (found : vm.getReg dst = .ok old)
    (scalar : value.isScalar = true) : exec (setReg dst value) vm = match heapChargeOf vm.layout old with
      | .error fault => (.error fault, vm)
      | .ok bytes => (.ok (), (vm.released bytes).setTop ((frame.subHeapCharge bytes).write dst.toNat value)) := by
  rw [setReg, exec_bind, exec_reading, frames_cons top]
  dsimp only
  rw [exec_bind, exec_reading, found]
  dsimp only
  by_cases both : (old.isScalar && value.isScalar) = true
  · rw [if_pos both, scalar_charge _ _ (Bool.and_eq_true_iff.mp both).1]
    dsimp only
    rw [released_zero]
    rfl
  · rw [if_neg both, exec_get_bind]
    rw [exec_bind, exec_reading]
    cases heapChargeOf vm.layout old with
    | error fault => rfl
    | ok bytes =>
      dsimp only
      rw [exec_bind, exec_reading, scalar_charge _ _ scalar]
      dsimp only
      rw [if_neg (Nat.not_lt_zero _)]
      by_cases some_ : bytes > 0
      · rw [if_pos some_, exec_bind, exec_release]
        rfl
      · rw [if_neg some_, Nat.eq_zero_of_not_pos some_, released_zero]
        rfl

theorem set_scalar_commutes (top : vm.frames = frame :: rest) {other : UInt8} (apart : other ≠ dst) {value : Value}
    (scalar : value.isScalar = true) (kept : Value) : exec (setReg dst value) (vm.withReg other kept) =
      ((exec (setReg dst value) vm).1, (exec (setReg dst value) vm).2.withReg other kept) := by
  have indexes : dst.toNat ≠ other.toNat := fun same => apart (UInt8.toNat_inj.mp same).symm
  have placed : (vm.withReg other kept).frames = frame.write other.toNat kept :: rest := by simp [withReg, top, setTop]
  have layout : (vm.withReg other kept).layout = vm.layout := by simp [withReg, top, setTop]
  have read := get_reg_other top apart kept
  cases found : vm.getReg dst with
  | error fault =>
    simp only [setReg, exec_bind, exec_reading, frames_cons top, frames_cons placed, read, found]
  | ok old =>
    rw [set_scalar top found scalar, set_scalar placed (read.trans found) scalar, layout]
    cases heapChargeOf vm.layout old with
    | error fault => rfl
    | ok bytes =>
      simp [withReg, top, setTop, released, withAccounts, Frame.write, Frame.subHeapCharge, List.set_comm _ _ indexes]

theorem combine_commutes (known : fused.expansion = some op) (top : vm.frames = frame :: rest) (fromSrc : fresh ≠ src)
    (fromDst : fresh ≠ dst) (kept : Value) : exec (combine op dst src imm) (vm.withReg fresh kept) =
      ((exec (combine op dst src imm) vm).1, (exec (combine op dst src imm) vm).2.withReg fresh kept) := by
  have read := get_reg_other top fromSrc kept
  cases found : vm.getReg src with
  | error fault => simp only [combine, exec_bind, exec_reading, read, found]
  | ok value =>
    rw [combine_read found, combine_read (read.trans found)]
    cases done : numericOp op value (.int imm.toInt64) with
    | error fault => rfl
    | ok result =>
      dsimp only
      rw [exec_bind, exec_bind, set_scalar_commutes top fromDst (combined_scalar known done)]
      rcases exec (setReg dst result) vm with ⟨fault | stored, after⟩ <;> rfl

-- The fresh register is in the frame and has not been written; the two runs
-- differ in what it holds afterwards and in nothing else.
theorem fused_equals_expansion (vm : Vm) (fused op : Opcode) (known : fused.expansion = some op) (dst src fresh c : UInt8)
    (imm given : Int32) (plain : ∀ x, vm.getReg src ≠ .ok (.float x)) (unused : vm.getReg fresh = .ok .unit)
    (fromSrc : fresh ≠ src) (fromDst : fresh ≠ dst) :
    exec (do let _ ← execute ⟨.loadImm, fresh, 0, 0, imm⟩; execute ⟨op, dst, src, fresh, given⟩) vm =
      ((exec (execute ⟨fused, dst, src, c, imm⟩) vm).1,
        (exec (execute ⟨fused, dst, src, c, imm⟩) vm).2.withReg fresh (.int imm.toInt64)) := by
  obtain ⟨frame, rest, top, held⟩ := get_reg_held unused
  have loads : exec (execute ⟨.loadImm, fresh, 0, 0, imm⟩) vm = (.ok none, vm.withReg fresh (.int imm.toInt64)) := by
    have scalar : (Value.int imm.toInt64).isScalar = true := rfl
    have stored := set_scalar top unused scalar
    rw [scalar_charge _ _ rfl] at stored
    dsimp only at stored
    rw [released_zero] at stored
    rw [execute, exec_bind, stored, withReg, top]
    rfl
  rw [exec_bind, loads]
  dsimp only
  rw [general_combines known (get_reg_written top unused _), combine_commutes known top fromSrc fromDst,
    fused_combines known plain]

end Fused

def fullVm : Vm :=
  ⟨.word, ⟨"", [], [], []⟩, ⟨[]⟩, NativeGate.deny 0, [⟨0, 0, [.int 0x7FFFFFFFFFFFFFFF, .unit, .unit], none, 0⟩], 0,
    1, none, none, [], 0⟩

theorem wrapped_sum_expanded : (exec (do let _ ← execute ⟨.loadImm, 2, 0, 0, 1⟩; execute ⟨.add, 1, 0, 2, 0⟩) fullVm).2.getReg 1
    = .ok (.int (-0x8000000000000000)) := by
  rw [fused_equals_expansion fullVm .addImm .add rfl 1 0 2 0 1 0 (fun x held => by cases held) rfl (by decide) (by decide)]
  rfl

end Vm

end Byteflow
