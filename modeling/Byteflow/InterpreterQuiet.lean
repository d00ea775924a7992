import Byteflow.MachineQuiet
import Byteflow.VerifyOperands

namespace Byteflow.Vm

open Exec

-- The ways an opcode that stays in its frame may change the machine.
inductive RegisterAtom : (γ : Type) → VmM γ → Prop where
  | setReg (reg : UInt8) (value : Value) : RegisterAtom Unit (setReg reg value)
  | dictPut (instr : Instruction) : RegisterAtom Unit (dictPut instr)
  | dictErase (instr : Instruction) : RegisterAtom Unit (dictErase instr)
  | freshRequestId : RegisterAtom UInt64 freshRequestId

abbrev Scripted (γ : Type) (m : VmM γ) : Prop := Built RegisterAtom γ m

-- One walk over the opcodes shows both: what the machine is changed by, and,
-- where the operands are as verified says, that no structural fault comes.
structure Acts {α : Type} (verified : Prop) (S : Shape → Prop) (m : VmM α) : Prop where
  steady : verified → Steady S m
  scripted : Scripted α m

section Acts

variable {α β : Type} {verified : Prop} {S : Shape → Prop} {m : VmM α}

theorem acts_pure (a : α) : Acts verified S (pure a) := ⟨fun _ => steady_pure a, .pure a⟩

theorem acts_throw (fault : Fault) (tame : verified → fault.isStructural = false) : Acts verified S (throw fault : VmM α) :=
  ⟨fun holds => steady_throw fault (tame holds), .throw fault⟩

theorem acts_refuse (fault : Fault) (tame : fault.isStructural = false) : Acts verified S (throw fault : VmM α) :=
  acts_throw fault fun _ => tame

theorem acts_read {f : Vm → Except Fault α} (steady : Steady S (reading f)) : Acts verified S (reading f) :=
  ⟨fun _ => steady, .reading f⟩

theorem acts_atom (isAtom : RegisterAtom α m) (steady : Steady S m) : Acts verified S m :=
  ⟨fun _ => steady, .atom isAtom⟩

theorem acts_bind {f : α → VmM β} (first : Acts verified S m) (next : ∀ a, Acts verified S (f a)) :
    Acts verified S (m >>= f) :=
  ⟨fun holds => steady_bind (first.steady holds) fun a => (next a).steady holds, .bind first.scripted fun a => (next a).scripted⟩

theorem acts_get_bind {f : Vm → VmM β}
    (next : ∀ vm, Acts (verified ∧ S vm.shape) (fun shape => shape = vm.shape) (f vm)) : Acts verified S (get >>= f) :=
  ⟨fun holds => steady_get_bind fun vm within => (next vm).steady ⟨holds, within⟩, .bind .get fun vm => (next vm).scripted⟩

theorem acts_ite (c : Prop) [Decidable c] {n : VmM α} (yes : c → Acts verified S m) (no : ¬ c → Acts verified S n) :
    Acts verified S (if c then m else n) := by
  split
  case isTrue holds => exact yes holds
  case isFalse fails => exact no fails

theorem acts_then_none {m : VmM Unit} (acts : Acts verified S m) : Acts verified S (do m; return (none : Option VmResult)) :=
  acts_bind acts fun _ => acts_pure none

theorem acts_then_pure (f : α → β) (acts : Acts verified S m) : Acts verified S (do return f (← m)) :=
  acts_bind acts fun a => acts_pure (f a)

theorem acts_within {S' : Shape → Prop} (acts : Acts verified S' m) (within : verified → ∀ shape, S shape → S' shape) :
    Acts verified S m :=
  ⟨fun holds => steady_mono (acts.steady holds) (within holds), acts.scripted⟩

theorem set_reg_acts (reg : UInt8) (value : Value) : Acts verified Shape.Ready (setReg reg value) :=
  acts_atom (.setReg reg value) (set_reg_quiet reg value)

end Acts

theorem get_still : Still (get : VmM Vm) := fun _ _ _ same => same

theorem int_from_reg_quiet (reg : UInt8) : Quiet (reading (intFromReg reg)) :=
  read_value_quiet requireInt reg require_int_tame

def isBitwise : Opcode → Bool
  | .bitAnd | .bitOr | .bitXor | .shl | .shr | .ushr => true
  | _ => false

def isArithmetic : Opcode → Bool
  | .add | .sub | .mul | .div | .mod | .eq | .ne | .lt | .le | .gt | .ge => true
  | _ => false

theorem bit_op_tame (op : Opcode) (x y : Int64) (bitwise : isBitwise op = true) : Tame (bitOp op x y) := by
  cases op <;> first | exact tame_ok _ | cases bitwise

theorem float_op_tame {α : Type} (a b : Value) (combine : F64 → F64 → α) :
    Tame (do .ok (combine (← asF64 a) (← asF64 b)) : Except Fault α) :=
  tame_bind _ _ (as_f64_tame a) fun _ _ => tame_bind _ _ (as_f64_tame b) fun _ _ => tame_ok _

theorem numeric_op_tame (op : Opcode) (a b : Value) (arithmetic : isArithmetic op = true) : Tame (numericOp op a b) := by
  unfold numericOp
  split
  all_goals first
    | exact tame_ok _
    | exact tame_error _ rfl
    | exact float_op_tame _ _ _
    | exact tame_ite _ _ _ (tame_error _ rfl) (tame_ok _)
    | exact tame_bind _ _ (as_f64_tame _) fun _ _ => tame_bind _ _ (as_f64_tame _) fun _ _ => tame_ok _
    | skip
  -- Only the catch-all arm is left: an opcode the dispatch never sends here.
  cases op <;> simp_all [isArithmetic]

theorem neg_value_tame (value : Value) : Tame (negValue value) := by
  cases value <;> first | exact tame_ok _ | exact tame_error _ rfl

theorem map_key_of_tame (value : Value) : Tame (mapKeyOf value) := by
  cases value <;> first | exact tame_ok _ | exact tame_error _ rfl

theorem adjust_dict_quota_still (oldBytes newBytes : Nat) : Still (adjustDictQuota oldBytes newBytes) := by
  refine steady_ite _ (fun _ => ?_) fun _ => steady_ite _ (fun _ => ?_) fun _ => steady_pure _
  · refine steady_bind (charge_still _) fun _ => steady_get_bind fun vm _ => ?_
    cases vm.layout.checkedAdd vm.dictBytes (newBytes - oldBytes) with
    | none => exact steady_bind (steady_of_still (release_still _)) fun _ => steady_throw _ rfl
    | some next => exact steady_modify _ fun _ same => same.symm
  · exact steady_bind (release_still _) fun _ => steady_modify _ fun _ _ => rfl

theorem dict_insert_still (key : Int64) (value : Value) : Still (modify (dictInsert key value) : VmM Unit) :=
  steady_modify _ fun _ _ => rfl

theorem dict_put_quiet (instr : Instruction) : Quiet (dictPut instr) := by
  refine steady_bind (int_from_reg_quiet _) fun key => steady_bind (get_reg_quiet _) fun value => ?_
  refine steady_bind (pure_reading_steady _ (dict_owned_bytes_tame value)) fun newBytes => ?_
  refine steady_bind (steady_of_still get_still) fun vm => ?_
  refine steady_bind (pure_reading_steady _ (dict_owned_bytes_tame _)) fun oldBytes => ?_
  refine steady_bind (steady_of_still (adjust_dict_quota_still _ _)) fun _ => ?_
  refine steady_bind (steady_on_error (set_reg_quiet _ _) fun fault tame => ?_) fun _ =>
    steady_of_still (dict_insert_still key value)
  exact steady_bind (steady_of_still (adjust_dict_quota_still _ _)) fun _ => steady_throw fault tame

theorem dict_erase_quiet (instr : Instruction) : Quiet (dictErase instr) := by
  refine steady_bind (int_from_reg_quiet _) fun key => steady_bind (get_reg_quiet _) fun _ => ?_
  refine steady_bind (steady_of_still get_still) fun vm => ?_
  cases vm.dictLookup key with
  | none => exact set_reg_quiet _ _
  | some old =>
    refine steady_bind (steady_modify _ fun _ _ => rfl) fun _ => ?_
    refine steady_bind (pure_reading_steady _ (dict_owned_bytes_tame old)) fun oldBytes => ?_
    refine steady_bind (steady_on_error (steady_of_still (adjust_dict_quota_still _ _)) fun fault tame => ?_)
      fun _ => steady_on_error (set_reg_quiet _ _) fun fault tame => ?_
    · exact steady_bind (steady_of_still (dict_insert_still key old)) fun _ => steady_throw fault tame
    · exact steady_bind (steady_of_still (dict_insert_still key old)) fun _ =>
        steady_bind (steady_of_still (adjust_dict_quota_still _ _)) fun _ => steady_throw fault tame

theorem fresh_request_id_still : Still freshRequestId := by
  refine steady_get_bind fun vm _ => steady_ite _ (fun _ => ?_) fun _ => ?_
  · exact steady_bind (steady_modify _ fun _ same => same.symm) fun _ => steady_pure _
  · exact steady_bind (steady_modify _ fun _ same => same.symm) fun _ => steady_pure _

section Opcodes

variable {verified : Prop}

theorem read_reg_acts (reg : UInt8) : Acts verified Shape.Ready (reading (getReg reg)) := acts_read (get_reg_quiet reg)

theorem read_value_acts {α : Type} (f : Value → Except Fault α) (reg : UInt8) (tame : ∀ value, Tame (f value)) :
    Acts verified Shape.Ready (reading fun vm => vm.getReg reg >>= f) := acts_read (read_value_quiet f reg tame)

theorem read_int_acts (reg : UInt8) : Acts verified Shape.Ready (reading (intFromReg reg)) :=
  read_value_acts requireInt reg require_int_tame

theorem read_tag_acts (reg : UInt8) : Acts verified Shape.Ready (reading (tagFromReg reg)) :=
  read_value_acts tagFromValue reg tag_from_value_tame

theorem read_request_id_acts (reg : UInt8) : Acts verified Shape.Ready (reading (requestIdFromReg reg)) :=
  read_value_acts requestIdFromValue reg request_id_from_value_tame

theorem read_duration_acts (reg : UInt8) : Acts verified Shape.Ready (reading (durationMillisFromReg reg)) :=
  read_value_acts durationFromValue reg duration_from_value_tame

theorem read_cap_acts (reg : UInt8) : Acts verified Shape.Ready (reading (expectCapReg reg)) := by
  refine read_value_acts _ reg fun value => ?_
  cases value <;> first | exact tame_ok _ | exact tame_error _ rfl

theorem read_message_acts (reg : UInt8) : Acts verified Shape.Ready (reading (expectMessageValue reg)) := by
  refine read_value_acts _ reg fun value => ?_
  cases value <;> first | exact tame_ok _ | exact tame_error _ rfl

theorem read_str_acts (reg : UInt8) : Acts verified Shape.Ready (reading (expectStrReg reg)) := by
  refine read_value_acts _ reg fun value => ?_
  cases value <;> first | exact tame_ok _ | exact tame_error _ rfl

theorem numeric_imm_acts (onInt : Int64 → Int64 → Value) (onFloat : F64 → F64 → Value) (dst src : UInt8)
    (imm : Int32) : Acts verified Shape.Ready (numericImm onInt onFloat dst src imm) := by
  refine acts_bind (read_reg_acts src) fun value => ?_
  cases value <;> first | exact set_reg_acts dst _ | exact acts_refuse _ rfl

theorem bit_binop_acts (op : Opcode) (dst lhs rhs : UInt8) (bitwise : isBitwise op = true) :
    Acts verified Shape.Ready (bitBinop op dst lhs rhs) :=
  acts_bind (read_int_acts lhs) fun x => acts_bind (read_int_acts rhs) fun y =>
    acts_bind (acts_read (pure_reading_steady _ (bit_op_tame op x y bitwise))) fun _ => set_reg_acts dst _

theorem numeric_binop_acts (op : Opcode) (dst lhs rhs : UInt8) (arithmetic : isArithmetic op = true) :
    Acts verified Shape.Ready (numericBinop op dst lhs rhs) :=
  acts_bind (read_reg_acts lhs) fun a => acts_bind (read_reg_acts rhs) fun b =>
    acts_bind (acts_read (pure_reading_steady _ (numeric_op_tame op a b arithmetic))) fun _ => set_reg_acts dst _

theorem built_acts (dst : UInt8) (built : Option Value) {fault : Fault} (tame : fault.isStructural = false) :
    Acts verified Shape.Ready (match built with | some packed => setReg dst packed | none => throw fault) := by
  cases built with
  | none => exact acts_refuse _ tame
  | some packed => exact set_reg_acts dst packed

theorem pack_with_acts (maxLen : Nat) (expected : String) (build : List Value → Option Value) (dst base : UInt8)
    (count : Int32) (window : verified → count.toInt.toNat = 0 ∨ base.toNat + count.toInt.toNat ≤ 255) :
    Acts verified Shape.Ready (packWith maxLen expected build dst base count) := by
  refine acts_ite _ (fun _ => acts_refuse _ rfl) fun _ => ?_
  refine acts_bind ⟨fun holds => steady_reading _ fun vm ready => tame_mapM _ _ fun offset member => ?_, .reading _⟩
    fun items => built_acts dst (build items) rfl
  have inside := window holds
  have below := List.mem_range.mp member
  rw [regAt, if_pos (by omega)]
  exact get_reg_tame _ vm ready

theorem map_pack_acts (dst base : UInt8) (count : Int32)
    (window : verified → count.toInt.toNat = 0 ∨ base.toNat + count.toInt.toNat * 2 ≤ 255) :
    Acts verified Shape.Ready (mapPack dst base count) := by
  refine acts_ite _ (fun _ => acts_refuse _ rfl) fun _ => ?_
  refine acts_bind ⟨fun holds => steady_reading _ fun vm ready => tame_mapM _ _ fun index member => ?_, .reading _⟩
    fun entries => built_acts dst (Value.tryMap entries) rfl
  have inside := window holds
  have below := List.mem_range.mp member
  rw [regAt, if_pos (by omega), regAt, if_pos (by omega)]
  exact tame_bind _ _ (tame_ok _) fun keyReg _ => tame_bind _ _ (tame_ok _) fun valueReg _ =>
    tame_bind _ _ (get_reg_tame keyReg vm ready) fun key _ => tame_bind _ _ (map_key_of_tame key) fun _ _ =>
      tame_bind _ _ (get_reg_tame valueReg vm ready) fun _ _ => tame_ok _

theorem get_item_acts (expectedIndex expectedKind : String) (items : Value → Option (List Value)) (dst src : UInt8)
    (index : Int32) : Acts verified Shape.Ready (getItem expectedIndex expectedKind items dst src index) := by
  refine acts_ite _ (fun _ => acts_refuse _ rfl) fun _ => acts_bind (read_reg_acts src) fun value => ?_
  cases items value with
  | none => exact acts_refuse _ rfl
  | some found => exact built_acts dst found[index.toInt.toNat]? rfl

theorem length_of_acts (expected : String) (len : Value → Option Nat) (dst src : UInt8) :
    Acts verified Shape.Ready (lengthOf expected len dst src) := by
  refine acts_bind (read_reg_acts src) fun value => ?_
  cases len value with
  | none => exact acts_refuse _ rfl
  | some n => exact set_reg_acts dst _

theorem map_get_acts (dst src key : UInt8) : Acts verified Shape.Ready (mapGet dst src key) := by
  refine acts_bind (read_reg_acts src) fun value => ?_
  cases value <;> first
    | exact acts_refuse _ rfl
    | exact acts_bind (read_value_acts mapKeyOf key map_key_of_tame) fun _ => set_reg_acts dst _

theorem call_native_acts (instr : Instruction) (argBase argc : UInt8)
    (window : verified → argc.toNat = 0 ∨ argBase.toNat + argc.toNat ≤ 256) :
    Acts verified Shape.Ready (callNative instr argBase argc) := by
  refine acts_get_bind fun vm => ?_
  cases gate : checkNativeGate vm.nativeGate vm.natives instr.imm.toUInt32 with
  | error denied => cases denied <;> exact acts_refuse _ rfl
  | ok allowed =>
    refine acts_bind ⟨fun holds => steady_reading _ fun other same => ?_, .reading _⟩ fun args => ?_
    · exact gather_regs_tame argBase argc 0 other (same ▸ holds.2) (by simpa using window holds.1)
    cases found : vm.natives.get instr.imm.toUInt32 with
    | none => exact acts_refuse _ rfl
    | some native =>
      refine acts_bind ⟨fun holds => pure_reading_steady _ fun fault failed => ?_, .reading _⟩ fun value =>
        acts_within (set_reg_acts instr.a value) fun holds _ same => same ▸ holds.2
      obtain ⟨message, rfl⟩ := holds.2.2 _ native found _ _ fault failed
      rfl

end Opcodes

-- The opcodes that move the pc or the frame stack; every other one keeps the shape.
def isControl : Opcode → Bool
  | .jump | .branch | .branchTrue | .call | .tailCall | .ret => true
  | _ => false

-- What the verifier guarantees about the operands of an instruction of chunk.
structure Operands (chunk : Chunk) (instr : Instruction) : Prop where
  loadConst : instr.op = .loadConst → ∃ konst, chunk.constant instr.imm.toUInt32 = some konst
  callNative : instr.op = .callNative → instr.b.toNat = 0 ∨ instr.a.toNat + instr.b.toNat ≤ 256
  spawn : instr.op = .spawn → instr.b.toNat = 0 ∨ instr.a.toNat + 1 + instr.b.toNat ≤ 256
  listPack : instr.op = .listPack ∨ instr.op = .recordPack →
    instr.imm.toInt.toNat = 0 ∨ instr.b.toNat + instr.imm.toInt.toNat ≤ 255
  mapPack : instr.op = .mapPack → instr.imm.toInt.toNat = 0 ∨ instr.b.toNat + instr.imm.toInt.toNat * 2 ≤ 255

theorem verified_operands {chunk : Chunk} {fn : FunctionDef} {pc : Nat} {instr : Instruction}
    (verified : Verified chunk) (member : fn ∈ chunk.functions) (inside : InSpan chunk fn pc)
    (found : chunk.code[pc]? = some instr) : Operands chunk instr := by
  have small := fn.numRegisters.toNat_lt
  refine ⟨verified_load_const verified found, fun isOp => ?_, fun isOp => ?_, verified_list_pack verified found,
    verified_map_pack verified found⟩
  · exact (verified_call_native verified member inside found isOp).imp id fun fits => by omega
  · exact (verified_spawn verified member inside found isOp).imp id fun fits => by omega

def childIndex (imm : Int32) : UInt32 := (u32TryFrom imm).getD 0xFFFFFFFF

theorem start_child_acts (chunk : Chunk) (instr : Instruction) (isOp : instr.op = .startChild) :
    Acts (chunk.function (childIndex instr.imm)).isSome (fun shape => shape.Ready ∧ shape.chunk = chunk) (execute instr) := by
  simp only [execute, isOp]
  refine acts_get_bind fun vm => acts_ite _ (fun missing => acts_throw _ fun holds => ?_) fun _ => ?_
  · obtain ⟨known, _, same⟩ := holds
    rw [show vm.chunk = chunk from same] at missing
    exact absurd known (by simpa [childIndex] using missing)
  · exact acts_ite _ (fun _ => acts_refuse _ rfl) fun _ => acts_pure _

theorem load_const_acts (chunk : Chunk) (instr : Instruction) (isOp : instr.op = .loadConst) :
    Acts (∃ konst, chunk.constant instr.imm.toUInt32 = some konst) (fun shape => shape.Ready ∧ shape.chunk = chunk)
      (execute instr) := by
  simp only [execute, isOp]
  refine acts_get_bind fun vm => ?_
  cases found : vm.chunk.constant instr.imm.toUInt32 with
  | none =>
    refine acts_throw _ fun holds => ?_
    obtain ⟨⟨konst, known⟩, _, same⟩ := holds
    rw [← show vm.chunk = chunk from same, found] at known
    cases known
  | some konst => exact acts_then_none (acts_within (set_reg_acts _ _) fun holds _ same => same ▸ holds.2.1)

def registerOpcodes : List Opcode :=
  [.nop, .loadImm, .addImm, .subImm, .ltImm, .mulImm, .eqImm, .neImm, .leImm, .gtImm, .geImm, .bitAnd, .bitOr, .bitXor,
    .shl, .shr, .ushr, .bitNot, .listPack, .listGet, .listLen, .recordPack, .recordGet, .recordLen, .strLen, .bytesLen,
    .mapPack, .mapGet, .mapLen, .add, .sub, .mul, .div, .mod, .eq, .ne, .lt, .le, .gt, .ge, .neg, .callNative,
    .callNativeFrom, .dictPut, .dictGet, .dictErase, .freshRequestId]

theorem execute_register_acts (chunk : Chunk) (instr : Instruction) (writes : instr.op ∈ registerOpcodes ∨ instr.op = .move) :
    Acts (Operands chunk instr) Shape.Ready (execute instr) := by
  cases isOp : instr.op
  all_goals rw [isOp] at writes
  all_goals try exact absurd writes (by decide)
  all_goals simp only [execute, isOp]
  case nop => exact acts_pure none
  case move =>
    refine acts_ite _ (fun _ => ?_) fun _ => acts_pure _
    exact acts_bind (read_reg_acts _) fun _ => acts_then_none (set_reg_acts _ _)
  case loadImm => exact acts_then_none (set_reg_acts _ _)
  case addImm | subImm | ltImm | mulImm | leImm | gtImm | geImm =>
    exact acts_then_none (numeric_imm_acts _ _ _ _ _)
  case eqImm | neImm => exact acts_then_none (acts_bind (read_reg_acts _) fun _ => set_reg_acts _ _)
  case bitAnd | bitOr | bitXor | shl | shr | ushr => exact acts_then_none (bit_binop_acts _ _ _ _ rfl)
  case bitNot => exact acts_then_none (acts_bind (read_int_acts _) fun _ => set_reg_acts _ _)
  case listPack | recordPack =>
    exact acts_then_none (pack_with_acts _ _ _ _ _ _ fun operands => operands.listPack (by simp [isOp]))
  case listGet | recordGet => exact acts_then_none (get_item_acts _ _ _ _ _ _)
  case listLen | recordLen | strLen | bytesLen | mapLen => exact acts_then_none (length_of_acts _ _ _ _)
  case mapPack => exact acts_then_none (map_pack_acts _ _ _ fun operands => operands.mapPack isOp)
  case mapGet => exact acts_then_none (map_get_acts _ _ _)
  case add | sub | mul | div | mod | eq | ne | lt | le | gt | ge =>
    exact acts_then_none (numeric_binop_acts _ _ _ _ rfl)
  case neg =>
    exact acts_bind (read_value_acts negValue _ neg_value_tame) fun _ => acts_then_none (set_reg_acts _ _)
  case callNative => exact acts_then_none (call_native_acts _ _ _ fun operands => operands.callNative isOp)
  case callNativeFrom =>
    have small := instr.b.toNat_lt
    exact acts_then_none (call_native_acts _ _ 1 fun _ => Or.inr (by simp; omega))
  case dictPut => exact acts_then_none (acts_atom (.dictPut _) (dict_put_quiet _))
  case dictGet =>
    refine acts_then_none (acts_bind (read_int_acts _) fun _ => acts_get_bind fun vm => ?_)
    exact acts_within (set_reg_acts _ _) fun holds _ same => same ▸ holds.2
  case dictErase => exact acts_then_none (acts_atom (.dictErase _) (dict_erase_quiet _))
  case freshRequestId =>
    exact acts_bind (acts_atom .freshRequestId (steady_of_still fresh_request_id_still)) fun _ =>
      acts_then_none (set_reg_acts _ _)

def requestOpcodes : List Opcode :=
  [.halt, .receiveMatchCmp, .tableOpen, .tableGet, .tablePut, .spawn, .yield, .sleep, .exit, .selfPid, .send, .receive,
    .receiveTimeout, .receiveMatch, .receiveMatchImm, .receiveMatchTimeout, .receiveMatchImmTimeout, .isAlive,
    .exitSignal, .receiveMatchEq, .receiveMatchValue, .startSupervisor, .receiveMatchKind, .receiveMatchCorr,
    .receiveMatchCorrImm, .ask, .askTimeout, .monitor, .demonitor, .link, .unlink, .setTrapExit, .setRestartPolicy,
    .hostAwait, .registerName, .whereis, .delegate, .trap]

theorem execute_request_acts (chunk : Chunk) (instr : Instruction) (leaves : instr.op ∈ requestOpcodes ∨ instr.op = .sendRemote) :
    Acts (Operands chunk instr) Shape.Ready (execute instr) := by
  have tagImm : Acts (Operands chunk instr) Shape.Ready (reading fun _ => tagFromImm instr.imm) :=
    acts_read (pure_reading_steady _ (tag_from_imm_tame _))
  cases isOp : instr.op
  all_goals rw [isOp] at leaves
  all_goals try exact absurd leaves (by decide)
  all_goals simp only [execute, isOp]
  case yield | selfPid | receive | demonitor | unlink => exact acts_pure _
  case halt | exit | setTrapExit => exact acts_then_pure _ (read_reg_acts _)
  case tableOpen | registerName | whereis => exact acts_then_pure _ (read_str_acts _)
  case isAlive | monitor | link => exact acts_then_pure _ (read_cap_acts _)
  case sleep | receiveTimeout => exact acts_then_pure _ (read_duration_acts _)
  case receiveMatch => exact acts_then_pure _ (read_tag_acts _)
  case receiveMatchImm => exact acts_then_pure _ tagImm
  case receiveMatchTimeout => exact acts_bind (read_tag_acts _) fun _ => acts_then_pure _ (read_duration_acts _)
  case receiveMatchImmTimeout => exact acts_bind tagImm fun _ => acts_then_pure _ (read_duration_acts _)
  case receiveMatchEq => exact acts_bind (read_tag_acts _) fun _ => acts_then_pure _ (read_int_acts _)
  case receiveMatchValue => exact acts_bind (read_tag_acts _) fun _ => acts_then_pure _ (read_reg_acts _)
  case receiveMatchCorr => exact acts_bind (read_tag_acts _) fun _ => acts_then_pure _ (read_request_id_acts _)
  case receiveMatchCorrImm => exact acts_bind tagImm fun _ => acts_then_pure _ (read_request_id_acts _)
  case receiveMatchCmp =>
    refine acts_bind (read_tag_acts _) fun _ => acts_bind (read_int_acts _) fun _ => ?_
    cases IntCmp.fromImm instr.imm with
    | none => exact acts_refuse _ rfl
    | some cmp => exact acts_pure _
  case receiveMatchKind =>
    cases u8TryFrom instr.imm with
    | none => exact acts_refuse _ rfl
    | some kind => exact acts_ite _ (fun _ => acts_pure _) fun _ => acts_refuse _ rfl
  case startSupervisor =>
    cases u8TryFrom instr.imm with
    | none => exact acts_refuse _ rfl
    | some strategy => exact acts_ite _ (fun _ => acts_refuse _ rfl) fun _ => acts_pure _
  case tableGet => exact acts_bind (read_cap_acts _) fun _ => acts_then_pure _ (read_reg_acts _)
  case tablePut =>
    exact acts_bind (read_cap_acts _) fun _ => acts_bind (read_reg_acts _) fun _ => acts_then_pure _ (read_reg_acts _)
  case send | ask => exact acts_bind (read_cap_acts _) fun _ => acts_then_pure _ (read_message_acts _)
  case sendRemote =>
    refine acts_bind (read_int_acts _) fun node => acts_ite _ (fun _ => acts_refuse _ rfl) fun _ => ?_
    refine acts_bind (read_reg_acts _) fun name => ?_
    cases name <;> first | exact acts_refuse _ rfl | exact acts_then_pure _ (read_message_acts _)
  case askTimeout =>
    cases u8TryFrom instr.imm with
    | none => exact acts_refuse _ rfl
    | some millisReg =>
      exact acts_bind (read_duration_acts _) fun _ => acts_bind (read_cap_acts _) fun _ => acts_then_pure _ (read_message_acts _)
  case spawn =>
    refine acts_then_pure _ ⟨fun operands => steady_reading _ fun vm ready => gather_regs_tame _ _ 1 vm ready ?_, .reading _⟩
    exact (operands.spawn isOp).imp id fun fits => by simpa using fits
  case exitSignal =>
    exact acts_bind (read_cap_acts _) fun _ => acts_bind (read_int_acts _) fun _ =>
      acts_ite _ (fun _ => acts_pure _) fun _ => acts_refuse _ rfl
  case setRestartPolicy => exact acts_ite _ (fun _ => acts_pure _) fun _ => acts_refuse _ rfl
  case hostAwait =>
    exact acts_bind (read_reg_acts _) fun _ => acts_ite _ (fun _ => acts_refuse _ rfl) fun _ => acts_pure _
  case delegate =>
    exact acts_bind (read_cap_acts _) fun _ => acts_ite _ (fun _ => acts_pure _) fun _ => acts_then_pure _ (read_cap_acts _)
  case trap => exact acts_refuse _ rfl

theorem execute_acts (chunk : Chunk) (instr : Instruction) (control : isControl instr.op = false) :
    Acts (Operands chunk instr ∧ (instr.op = .startChild → (chunk.function (childIndex instr.imm)).isSome))
      (fun shape => shape.Ready ∧ shape.chunk = chunk) (execute instr) := by
  have ready : Acts (Operands chunk instr) Shape.Ready (execute instr) → Acts (Operands chunk instr ∧
      (instr.op = .startChild → (chunk.function (childIndex instr.imm)).isSome))
        (fun shape => shape.Ready ∧ shape.chunk = chunk) (execute instr) :=
    fun acts => ⟨fun holds => steady_mono (acts.steady holds.1) fun _ within => within.1, acts.scripted⟩
  by_cases isChild : instr.op = .startChild
  · have acts := start_child_acts chunk instr isChild
    exact ⟨fun holds => acts.steady (holds.2 isChild), acts.scripted⟩
  by_cases isConst : instr.op = .loadConst
  · have acts := load_const_acts chunk instr isConst
    exact ⟨fun holds => acts.steady (holds.1.loadConst isConst), acts.scripted⟩
  by_cases writes : instr.op ∈ registerOpcodes ∨ instr.op = .move
  · exact ready (execute_register_acts chunk instr writes)
  · refine ready (execute_request_acts chunk instr ?_)
    revert control isChild isConst writes
    cases instr.op <;> decide

-- Which chunk it is matters to the verified half only.
theorem execute_scripted (instr : Instruction) (control : isControl instr.op = false) :
    Scripted (Option VmResult) (execute instr) :=
  (execute_acts ⟨"", [], [], []⟩ instr control).scripted

end Byteflow.Vm
