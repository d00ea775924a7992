import Byteflow.VerifySpan

namespace Byteflow

section Operands

variable {chunk : Chunk} {fn : FunctionDef} {pc : Nat} {instr : Instruction}

-- Inside a span the verifier checked windows against a register file no
-- larger than the one the frame of that function has.
theorem with_limit_ok (member : fn ∈ chunk.functions) (inside : InSpan chunk fn pc)
    {check : UInt8 → Except VerifyError Unit} (ok : withLimit (registerLimits chunk) pc check = .ok ()) :
    ∃ limit, limit.toNat ≤ fn.numRegisters.toNat ∧ check limit = .ok () := by
  have found := register_limit_at chunk fn pc member inside
  exact ⟨_, group_limit_le chunk.functions fn member, by simpa only [withLimit, found] using ok⟩

theorem check_slot_ok {reg limit : UInt8} {what : String} (ok : checkSlot pc reg limit what = .ok ()) :
    reg.toNat < limit.toNat := by
  by_contra outside
  simp [checkSlot, outside] at ok

theorem check_window_ok {base limit : UInt8} {extra count : Nat}
    (ok : checkWindow pc base extra count limit = .ok ()) : count = 0 ∨ base.toNat + extra + count ≤ limit.toNat := by
  by_contra outside
  rw [not_or, Nat.not_le] at outside
  simp [checkWindow, outside.1, outside.2] at ok

theorem check_pack_ok {base : UInt8} {count : Int32} {width maxLen : Nat}
    (ok : checkPack pc base count width maxLen = .ok ()) :
    0 ≤ count.toInt ∧ count.toInt ≤ maxLen ∧
      (count.toInt.toNat = 0 ∨ base.toNat + count.toInt.toNat * width ≤ 255) := by
  unfold checkPack at ok
  by_cases length : 0 ≤ count.toInt ∧ count.toInt ≤ maxLen
  · rw [if_neg (by simpa using length)] at ok
    refine ⟨length.1, length.2, ?_⟩
    by_cases empty : count = 0
    · exact Or.inl (by simp [empty])
    · rw [if_neg empty] at ok
      by_contra outside
      rw [not_or, Nat.not_le] at outside
      rw [if_pos outside.2] at ok
      cases ok
  · rw [if_pos length] at ok
    cases ok

theorem verify_call_ok (member : fn ∈ chunk.functions) (inside : InSpan chunk fn pc)
    (ok : verifyCall chunk (registerLimits chunk) pc instr = .ok ()) :
    ∃ callee, chunk.function instr.imm.toUInt32 = some callee ∧ instr.b = callee.arity ∧
      instr.a.toNat < fn.numRegisters.toNat ∧
      (instr.b.toNat = 0 ∨
        instr.a.toNat + (if instr.op = .spawn then 1 else 0) + instr.b.toNat ≤ fn.numRegisters.toNat) := by
  unfold verifyCall at ok
  dsimp only at ok
  cases target : chunk.function instr.imm.toUInt32 with
  | none =>
    rw [target] at ok
    cases ok
  | some callee =>
    simp only [target] at ok
    split at ok
    · cases ok
    rename_i wrong
    obtain ⟨limit, bound, checked⟩ := with_limit_ok member inside ok
    obtain ⟨_, slot, window⟩ := (Exec.except_bind_ok_iff _ _ _).mp checked
    have slotBound := check_slot_ok slot
    have windowBound := check_window_ok window
    exact ⟨callee, rfl, not_not.mp wrong, by omega, windowBound.imp id (fun fits => by omega)⟩

theorem u32_try_from_nonneg (imm : Int32) (nonneg : 0 ≤ imm.toInt) :
    ∃ index, u32TryFrom imm = some index ∧ index.toNat = imm.toInt.toNat := by
  refine ⟨_, if_pos nonneg, UInt32.toNat_ofNat_of_lt' ?_⟩
  have bound := imm.toInt_lt
  change imm.toInt.toNat < 4294967296
  omega

variable (verified : Verified chunk) (member : fn ∈ chunk.functions) (inside : InSpan chunk fn pc)
  (found : chunk.code[pc]? = some instr)

include verified found

theorem verified_load_const (isOp : instr.op = .loadConst) :
    ∃ konst, chunk.constant instr.imm.toUInt32 = some konst := by
  have ok := verified.instruction pc instr found
  simp only [verifyInstruction, isOp] at ok
  by_cases outside : instr.imm.toUInt32.toNat ≥ chunk.constants.length
  · rw [if_pos outside] at ok
    cases ok
  · exact ⟨_, List.getElem?_eq_getElem (Nat.not_le.mp outside)⟩

theorem verified_list_pack (isOp : instr.op = .listPack ∨ instr.op = .recordPack) :
    instr.imm.toInt.toNat = 0 ∨ instr.b.toNat + instr.imm.toInt.toNat ≤ 255 := by
  have ok := verified.instruction pc instr found
  rcases isOp with isList | isRecord
  · simp only [verifyInstruction, isList] at ok
    simpa using (check_pack_ok ok).2.2
  · simp only [verifyInstruction, isRecord] at ok
    simpa using (check_pack_ok ok).2.2

theorem verified_map_pack (isOp : instr.op = .mapPack) :
    instr.imm.toInt.toNat = 0 ∨ instr.b.toNat + instr.imm.toInt.toNat * 2 ≤ 255 := by
  have ok := verified.instruction pc instr found
  simp only [verifyInstruction, isOp] at ok
  exact (check_pack_ok ok).2.2

-- The verifier reads the operand with as u32, the interpreter with
-- u32::try_from: they agree on the table row only when it is not negative.
theorem verified_start_child (isOp : instr.op = .startChild) :
    ∃ child, chunk.function instr.imm.toUInt32 = some child ∧ child.arity = 0 ∧ instr.b ≤ 2 := by
  have ok := verified.instruction pc instr found
  simp only [verifyInstruction, isOp, verifyStartChild] at ok
  cases target : chunk.function instr.imm.toUInt32 with
  | none =>
    rw [target] at ok
    cases ok
  | some child =>
    simp only [target] at ok
    by_cases noArgs : child.arity ≠ 0
    · rw [if_pos noArgs] at ok
      cases ok
    · by_cases policy : instr.b > 2
      · rw [if_neg noArgs, if_pos policy] at ok
        cases ok
      · exact ⟨child, rfl, not_not.mp noArgs, UInt8.not_lt.mp policy⟩

include member inside

theorem verified_call (isOp : instr.op = .call ∨ instr.op = .tailCall) :
    ∃ callee, chunk.function instr.imm.toUInt32 = some callee ∧ instr.b = callee.arity ∧
      instr.a.toNat < fn.numRegisters.toNat ∧
      (instr.b.toNat = 0 ∨ instr.a.toNat + instr.b.toNat ≤ fn.numRegisters.toNat) := by
  have ok := verified.instruction pc instr found
  have call : verifyCall chunk (registerLimits chunk) pc instr = .ok () := by
    rcases isOp with isCall | isTail
    · simpa only [verifyInstruction, isCall] using ok
    · simpa only [verifyInstruction, isTail] using ok
  have notSpawn : instr.op ≠ .spawn := by rcases isOp with isCall | isTail <;> simp [*]
  simpa [notSpawn] using verify_call_ok member inside call

theorem verified_spawn (isOp : instr.op = .spawn) :
    instr.b.toNat = 0 ∨ instr.a.toNat + 1 + instr.b.toNat ≤ fn.numRegisters.toNat := by
  have ok := verified.instruction pc instr found
  simp only [verifyInstruction, isOp] at ok
  obtain ⟨_, _, _, _, window⟩ := verify_call_ok member inside ok
  simpa [isOp] using window

theorem verified_call_native (isOp : instr.op = .callNative) :
    instr.b.toNat = 0 ∨ instr.a.toNat + instr.b.toNat ≤ fn.numRegisters.toNat := by
  have ok := verified.instruction pc instr found
  simp only [verifyInstruction, isOp] at ok
  obtain ⟨limit, bound, checked⟩ := with_limit_ok member inside ok
  exact (check_window_ok checked).imp id (fun fits => by omega)

theorem verified_child_dest (isOp : instr.op = .startChild) : instr.a.toNat < fn.numRegisters.toNat := by
  have ok := verified.instruction pc instr found
  obtain ⟨child, row, noArgs, policy⟩ := verified_start_child verified found isOp
  simp only [verifyInstruction, isOp, verifyStartChild, row] at ok
  rw [if_neg (not_not.mpr noArgs), if_neg (UInt8.not_lt.mpr policy)] at ok
  obtain ⟨limit, bound, checked⟩ := with_limit_ok member inside ok
  have slot := check_slot_ok checked
  omega

theorem verified_call_native_from (isOp : instr.op = .callNativeFrom) :
    instr.a.toNat < fn.numRegisters.toNat ∧ instr.b.toNat < fn.numRegisters.toNat := by
  have ok := verified.instruction pc instr found
  simp only [verifyInstruction, isOp] at ok
  obtain ⟨limit, bound, checked⟩ := with_limit_ok member inside ok
  obtain ⟨_, dest, source⟩ := (Exec.except_bind_ok_iff _ _ _).mp checked
  have destBound := check_slot_ok dest
  have sourceBound := check_slot_ok source
  exact ⟨by omega, by omega⟩

theorem verified_ask_timeout (isOp : instr.op = .askTimeout) :
    ∃ reg, u8TryFrom instr.imm = some reg ∧ reg.toNat < fn.numRegisters.toNat := by
  have ok := verified.instruction pc instr found
  simp only [verifyInstruction, isOp] at ok
  obtain ⟨limit, bound, checked⟩ := with_limit_ok member inside ok
  have small := fn.numRegisters.toNat_lt
  by_cases nonneg : 0 ≤ instr.imm.toInt
  · obtain ⟨index, isIndex, value⟩ := u32_try_from_nonneg instr.imm nonneg
    simp only [isIndex, value] at checked
    by_cases below : instr.imm.toInt.toNat < limit.toNat
    · have fits : 0 ≤ instr.imm.toInt ∧ instr.imm.toInt < 2 ^ 8 := ⟨nonneg, by omega⟩
      refine ⟨_, if_pos fits, ?_⟩
      rw [UInt8.toNat_ofNat_of_lt' (by change _ < 256; omega)]
      omega
    · rw [if_neg below] at checked
      cases checked
  · simp only [u32TryFrom, if_neg nonneg] at checked
    cases checked

end Operands

end Byteflow
