import Byteflow.RegisterWindows

namespace Byteflow

open List Exec

def Opcode.immFault : Opcode → Option Fault
  | .receiveMatchImm | .receiveMatchImmTimeout | .receiveMatchCorrImm => some (.typeMismatch "tag u16" "imm-out-of-range")
  | .listPack => some (.typeMismatch "list length 0..=256" "imm-out-of-range")
  | .recordPack => some (.typeMismatch "record length 0..=256" "imm-out-of-range")
  | .mapPack => some (.typeMismatch "map length 0..=256" "imm-out-of-range")
  | .listGet => some (.typeMismatch "list index" "negative-int")
  | .recordGet => some (.typeMismatch "record index" "negative-int")
  | .receiveMatchKind => some (.typeMismatch "payload kind 0..=10" "imm-out-of-range")
  | .receiveMatchCmp => some (.typeMismatch "cmp 0..=2" "imm-out-of-range")
  | .setRestartPolicy | .startChild => some (.typeMismatch "restart policy 0..=2" "imm-out-of-range")
  | .startSupervisor => some (.typeMismatch "strategy 0..=2" "imm-out-of-range")
  | .hostAwait => some (.typeMismatch "HostAwait op >= 0" "imm-negative")
  | .askTimeout => some (.typeMismatch "millis register" "imm-out-of-range")
  | _ => none

-- The registers one item of a pack takes.
def Opcode.packWidth : Opcode → Option Nat
  | .listPack | .recordPack => some 1
  | .mapPack => some 2
  | _ => none

-- A register of the window a pack reads: the immediate is its length.
def Instruction.MissesWindow (instr : Instruction) (fault : Fault) : Prop :=
  ∃ width reg size, instr.op.packWidth = some width ∧ fault = .registerOutOfRange reg size ∧
    instr.b.toNat ≤ reg.toNat ∧ reg.toNat < instr.b.toNat + width * instr.imm.toInt.toNat

-- An immediate is also an index into the chunk, a distance or a register.
def Instruction.BlamesImm (instr : Instruction) (fault : Fault) : Prop :=
  instr.op.immFault = some fault ∨ instr.MissesWindow fault ∨
    match instr.op, fault with
    | .loadConst, .badConstant .. => True
    | .jump, .badJump .. | .branch, .badJump .. | .branchTrue, .badJump .. => True
    | .call, .badFunction .. | .tailCall, .badFunction .. | .startChild, .badFunction .. => True
    | .listPack, .registerIndexOverflow .. | .recordPack, .registerIndexOverflow .. | .mapPack, .registerIndexOverflow .. => True
    | .askTimeout, .registerOutOfRange reg _ => u8TryFrom instr.imm = some reg
    | _, _ => False

namespace Vm

-- The window a pack reads ends behind the last register of the frame.
def PacksPast (before : Vm) (instr : Instruction) : Prop :=
  ∃ width frame below, instr.op.packWidth = some width ∧ before.frames = frame :: below ∧ 0 < instr.imm.toInt ∧
    frame.registers.length < instr.b.toNat + width * instr.imm.toInt.toNat

-- A pack that runs past the frame cannot end well: its length is to blame
-- also when map_pack reports a key of another type first.
def FaultsOnImm (before : Vm) : Prop :=
  ∃ instr fault after, before.nextInstruction = some instr ∧ exec step before = (.error fault, after) ∧
    (instr.BlamesImm fault ∨ before.PacksPast instr)

-- The immediates the verifier lets through and the interpreter refuses, the
-- lengths of packs apart.
def Refuses (before : Vm) (instr : Instruction) : Prop :=
  match instr.op with
  | .receiveMatchImmTimeout => u16TryFrom instr.imm = none
  | .startSupervisor => ¬ (0 ≤ instr.imm.toInt ∧ instr.imm.toInt ≤ 2)
  | .hostAwait => instr.imm.toInt < 0 ∧ ∃ frame below, before.frames = frame :: below ∧ instr.b.toNat < frame.registers.length
  | .listGet | .recordGet => instr.imm.toInt < 0
  | .startChild => instr.imm.toInt < 0 ∧ before.chunk.functions.length < 2 ^ 32
  | _ => False

def ImmRefused (before : Vm) : Prop := ∃ instr, before.nextInstruction = some instr ∧ (before.Refuses instr ∨ before.PacksPast instr)

section Refused

variable {chunk : Chunk} {before : Vm} {instr : Instruction} {frame : Frame} {below : List Frame} {fn : FunctionDef}

theorem strategy_refused (imm : Int32) (outside : ¬ (0 ≤ imm.toInt ∧ imm.toInt ≤ 2)) :
    u8TryFrom imm = none ∨ ∃ strategy, u8TryFrom imm = some strategy ∧ strategy > 2 := by
  by_cases fits : 0 ≤ imm.toInt ∧ imm.toInt < 2 ^ 8
  · refine Or.inr ⟨_, if_pos fits, ?_⟩
    have value : (UInt8.ofNat imm.toInt.toNat).toNat = imm.toInt.toNat :=
      UInt8.toNat_ofNat_of_lt' (by change _ < 256; omega)
    change 2 < (UInt8.ofNat imm.toInt.toNat).toNat
    omega
  · exact Or.inl (if_neg fits)

theorem window_reg_inside {vm : Vm} {size offset : Nat} {base reg : UInt8} {value : Value} (sized : vm.Sized size)
    (isReg : regAt base offset = .ok reg) (found : vm.getReg reg = .ok value) : base.toNat + offset < size := by
  unfold regAt at isReg
  split at isReg
  · cases isReg
    rename_i fits
    rcases get_reg_cases sized (UInt8.ofNat (base.toNat + offset)) with ⟨inside, _⟩ | ⟨_, missing⟩
    · rwa [UInt8.toNat_ofNat_of_lt' fits] at inside
    · cases missing.symm.trans found
  · cases isReg

-- A pack that returns has read the last item of its window.
theorem pack_returns_inside (fetched : Fetched chunk before frame below fn instr) {result : Option VmResult} {after : Vm}
    (ran : exec (execute instr) (before.advanced frame below) = (.ok result, after)) : ¬ before.PacksPast instr := by
  rintro ⟨width, top, rest, isWidth, frames, positive, past⟩
  obtain ⟨rfl, rfl⟩ := cons.inj (fetched.frames.symm.trans frames)
  have sized : (before.advanced frame below).Sized frame.registers.length := ⟨_, _, rfl, rfl⟩
  have last : instr.imm.toInt.toNat - 1 ∈ range instr.imm.toInt.toNat := mem_range.mpr (by omega)
  have checked := fetched.at_.verified.instruction _ _ fetched.at_.found
  cases isOp : instr.op
  all_goals rw [isOp] at isWidth
  all_goals cases isWidth
  case listPack | recordPack =>
    simp only [verifyInstruction, isOp] at checked
    obtain ⟨nonneg, most, _⟩ := check_pack_ok checked
    simp only [execute, isOp, listPack, recordPack, packWith, if_neg (not_not.mpr (And.intro nonneg most))] at ran
    obtain ⟨_, _, packed, _⟩ := exec_bind_returns ran
    obtain ⟨items, _, gathered, _⟩ := exec_bind_returns packed
    obtain ⟨value, read⟩ := mapM_ok_iff.mp ⟨items, (Prod.mk.inj gathered).1⟩ _ last
    obtain ⟨reg, isReg, found⟩ := (except_bind_ok_iff _ _ _).mp read
    have inside := window_reg_inside sized isReg found
    omega
  case mapPack =>
    simp only [verifyInstruction, isOp] at checked
    obtain ⟨nonneg, most, _⟩ := check_pack_ok checked
    simp only [execute, isOp, mapPack, if_neg (not_not.mpr (And.intro nonneg most))] at ran
    obtain ⟨_, _, packed, _⟩ := exec_bind_returns ran
    obtain ⟨entries, _, gathered, _⟩ := exec_bind_returns packed
    obtain ⟨entry, read⟩ := mapM_ok_iff.mp ⟨entries, (Prod.mk.inj gathered).1⟩ _ last
    simp only [except_bind_ok_iff] at read
    obtain ⟨_, _, _, isReg, _, _, _, _, _, found, _⟩ := read
    have inside := window_reg_inside sized isReg found
    omega

theorem refused_faults (fetched : Fetched chunk before frame below fn instr) (refused : before.Refuses instr) :
    ∃ fault after, exec step before = (.error fault, after) ∧ instr.BlamesImm fault := by
  rw [fetched.stepped]
  unfold Refuses at refused
  cases isOp : instr.op
  all_goals simp only [isOp] at refused
  case receiveMatchImmTimeout =>
    refine ⟨_, before.advanced frame below, ?_, Or.inl (by rw [isOp]; rfl)⟩
    simp only [execute, isOp, exec_bind, exec_reading, tagFromImm, refused]
  case startSupervisor =>
    refine ⟨_, before.advanced frame below, ?_, Or.inl (by rw [isOp]; rfl)⟩
    simp only [execute, isOp]
    rcases strategy_refused instr.imm refused with none_ | ⟨strategy, isStrategy, large⟩
    · rw [none_]
      rfl
    · rw [isStrategy]
      simp only [if_pos large]
      rfl
  case hostAwait =>
    obtain ⟨negative, top, rest, frames, inside⟩ := refused
    cases fetched.frames.symm.trans frames
    have size : frame.registers.length = fn.numRegisters.toNat := fetched.at_.size
    obtain ⟨args, isArgs⟩ := get_reg_ok fetched.sized (size ▸ inside)
    refine ⟨_, before.advanced frame below, ?_, Or.inl (by rw [isOp]; rfl)⟩
    simp only [execute, isOp, exec_bind, exec_reading, isArgs, if_pos negative]
    rfl
  case listGet | recordGet =>
    refine ⟨_, before.advanced frame below, ?_, Or.inl (by rw [isOp]; rfl)⟩
    simp only [execute, isOp, listGet, recordGet, getItem, if_pos refused]
    rfl
  case startChild =>
    obtain ⟨negative, few⟩ := refused
    have sameChunk : before.chunk = chunk := fetched.at_.running.sameChunk
    rw [sameChunk] at few
    have missing : (chunk.function ((u32TryFrom instr.imm).getD 0xFFFFFFFF)).isNone := by
      have unknown := mt (child_known_iff fetched.at_.verified fetched.at_.found isOp).mp (by omega)
      simpa [childIndex] using unknown
    rw [← sameChunk] at missing
    refine ⟨.badFunction ((u32TryFrom instr.imm).getD 0xFFFFFFFF) (UInt32.ofNat before.chunk.functions.length),
      before.advanced frame below, ?_, Or.inr (Or.inr ?_)⟩
    · simp only [execute, isOp, exec_bind, exec_get]
      exact congrArg (fun m : VmM (Option VmResult) => exec m (before.advanced frame below)) (if_pos missing)
    · rw [isOp]
      trivial

end Refused

section Spared

variable {expected got : String} {vm : Vm} {size : Nat} {reg : UInt8} {dst base : UInt8}

-- Another fault than the immediate's own, and of a register only when it is missing.
def Spared (text : Fault) (size : Nat) (fault : Fault) : Prop := fault ≠ text ∧ Beyond size fault

theorem get_reg_spares (sized : vm.Sized size) (fault : Fault) (failed : vm.getReg reg = .error fault) :
    Spared (.typeMismatch expected got) size fault := by
  refine ⟨?_, get_reg_beyond sized fault failed⟩
  obtain ⟨rfl, _⟩ := get_reg_error sized failed
  nofun

theorem set_reg_spares (sized : vm.Sized size) (value : Value) : Raises (Spared (.typeMismatch expected got) size) (setReg reg value) vm := by
  refine raises_mono (set_reg_raises sized reg value) fun fault store => ?_
  rcases store with quota | ⟨rfl, outside⟩
  · cases fault with
    | quotaExceeded => exact ⟨nofun, nofun⟩
    | _ => cases quota
  · refine ⟨nofun, fun other _ same => ?_⟩
    cases same
    exact outside

theorem other_text {expected' got' : String} (different : expected' ≠ expected) :
    Spared (.typeMismatch expected got) size (.typeMismatch expected' got') :=
  ⟨fun same => different (Fault.typeMismatch.inj same).1, nofun⟩

theorem reg_at_spares {offset : Nat} (fault : Fault) (failed : regAt base offset = .error fault) :
    Spared (.typeMismatch expected got) size fault := by
  unfold regAt at failed
  split at failed
  · cases failed
  · cases failed
    exact ⟨nofun, nofun⟩

theorem pack_spares (sized : vm.Sized size) {maxLen : Nat} {build : List Value → Option Value} {count : Int32}
    (length : 0 ≤ count.toInt ∧ count.toInt ≤ maxLen) :
    Raises (Spared (.typeMismatch expected got) size) (packWith maxLen expected build dst base count) vm := by
  rw [packWith, if_neg (not_not.mpr length)]
  refine raises_reading_bind (fun fault failed => ?_) fun items _ => ?_
  · obtain ⟨offset, _, failed⟩ := mapM_except_error _ _ _ failed
    rcases (except_bind_error_iff _ _ _).mp failed with overflow | ⟨reg, _, missing⟩
    · exact reg_at_spares fault overflow
    · exact get_reg_spares sized fault missing
  · cases build items with
    | some packed => exact set_reg_spares sized packed
    | none => exact raises_throw _ ⟨nofun, nofun⟩

theorem map_key_of_error {value : Value} {fault : Fault} (failed : mapKeyOf value = .error fault) :
    ∃ text, fault = .typeMismatch "map key (int or str)" text := by
  cases value with
  | int | str => cases failed
  | _ =>
    cases failed
    exact ⟨_, rfl⟩

theorem map_pack_spares (sized : vm.Sized size) {count : Int32} (length : 0 ≤ count.toInt ∧ count.toInt ≤ MAX_MAP_LEN) :
    Raises (Spared (.typeMismatch "map length 0..=256" "imm-out-of-range") size) (mapPack dst base count) vm := by
  rw [mapPack, if_neg (not_not.mpr length)]
  refine raises_reading_bind (fun fault failed => ?_) fun entries _ => ?_
  · obtain ⟨index, _, failed⟩ := mapM_except_error _ _ _ failed
    simp only [except_bind_error_iff] at failed
    rcases failed with overflow | ⟨_, _, overflow | ⟨_, _, missing | ⟨raw, _, typed | ⟨_, _, missing | ⟨_, _, done⟩⟩⟩⟩⟩
    · exact reg_at_spares fault overflow
    · exact reg_at_spares fault overflow
    · exact get_reg_spares sized fault missing
    · obtain ⟨text, rfl⟩ := map_key_of_error typed
      exact other_text (by decide)
    · exact get_reg_spares sized fault missing
    · cases done
  · cases Value.tryMap entries with
    | some packed => exact set_reg_spares sized packed
    | none => exact raises_throw _ (other_text (by decide))

theorem get_item_spares (sized : vm.Sized size) {kind index : String} (different : kind ≠ index) {items : Value → Option (List Value)}
    {src : UInt8} {imm : Int32} (nonneg : ¬ imm.toInt < 0) :
    Raises (Spared (.typeMismatch index "negative-int") size) (getItem index kind items dst src imm) vm := by
  rw [getItem, if_neg nonneg]
  refine raises_reading_bind (get_reg_spares sized) fun value _ => ?_
  cases items value with
  | none => exact raises_throw _ (other_text different)
  | some found =>
    dsimp only
    cases found[imm.toInt.toNat]? with
    | some item => exact set_reg_spares sized item
    | none => exact raises_throw _ ⟨fun same => absurd (Fault.typeMismatch.inj same).2 (by decide), nofun⟩

theorem int_spares (different : "int" ≠ expected) (value : Value) (fault : Fault) (failed : requireInt value = .error fault) :
    Spared (.typeMismatch expected got) size fault := by
  obtain ⟨text, rfl⟩ := require_int_error failed
  exact other_text different

theorem ranged_spares {α : Type} {fits : Int64 → Prop} [DecidablePred fits] {read : Int64 → α} {text got' : String}
    (different : "int" ≠ expected ∧ text ≠ expected) (value : Value) (fault : Fault)
    (failed : (requireInt value >>= fun n => if fits n then .ok (read n) else .error (.typeMismatch text got')) = .error fault) :
    Spared (.typeMismatch expected got) size fault := by
  rcases ranged_error failed with ⟨text, rfl⟩ | rfl
  · exact other_text different.1
  · exact other_text different.2

end Spared

section Accepted

variable {chunk : Chunk} {before : Vm} {instr : Instruction} {frame : Frame} {below : List Frame} {fn : FunctionDef}

theorem tag_imm_ok (imm : Int32) (fits : 0 ≤ imm.toInt ∧ imm.toInt < 2 ^ 16) : ∃ tag, tagFromImm imm = .ok tag := by
  rw [tagFromImm, u16TryFrom, if_pos fits]
  exact ⟨_, rfl⟩

theorem verified_tag_imm (at_ : AtInstruction chunk before.shape frame.shape (below.map Frame.shape) fn instr)
    (isOp : instr.op = .receiveMatchImm ∨ instr.op = .receiveMatchCorrImm) : ∃ tag, tagFromImm instr.imm = .ok tag := by
  have checked := at_.verified.instruction _ _ at_.found
  have bounded : ((u32TryFrom instr.imm).getD 0xFFFFFFFF).toNat ≤ 65535 := by
    by_contra outside
    rcases isOp with isOp | isOp
    · simp only [verifyInstruction, isOp, if_neg outside] at checked
      cases checked
    · simp only [verifyInstruction, isOp, if_neg outside] at checked
      cases checked
  by_cases nonneg : 0 ≤ instr.imm.toInt
  · obtain ⟨index, isIndex, value⟩ := u32_try_from_nonneg instr.imm nonneg
    rw [isIndex, Option.getD_some, value] at bounded
    exact tag_imm_ok instr.imm ⟨nonneg, by omega⟩
  · rw [u32TryFrom, if_neg nonneg] at bounded
    exact absurd bounded (by decide)

theorem tag_no_error {imm : Int32} {allowed : Fault → Prop} (ok : ∃ tag, tagFromImm imm = .ok tag) (fault : Fault)
    (failed : tagFromImm imm = .error fault) : allowed fault := by
  obtain ⟨tag, isTag⟩ := ok
  cases isTag.symm.trans failed

theorem u8_imm_ok (imm : Int32) (fits : 0 ≤ imm.toInt ∧ imm.toInt < 2 ^ 8) :
    ∃ byte, u8TryFrom imm = some byte ∧ byte.toNat = imm.toInt.toNat := by
  refine ⟨_, if_pos fits, UInt8.toNat_ofNat_of_lt' ?_⟩
  change imm.toInt.toNat < 256
  omega

theorem restart_policy_known (byte : UInt8) (known : byte ≤ 2) : (RestartPolicy.fromU8 byte).isNone = false := by
  have bound : byte.toNat ≤ 2 := known
  have cases_ : byte = 0 ∨ byte = 1 ∨ byte = 2 := by
    rcases (by omega : byte.toNat = 0 ∨ byte.toNat = 1 ∨ byte.toNat = 2) with zero | one | two
    · exact Or.inl (UInt8.toNat_inj.mp zero)
    · exact Or.inr (Or.inl (UInt8.toNat_inj.mp one))
    · exact Or.inr (Or.inr (UInt8.toNat_inj.mp two))
  rcases cases_ with rfl | rfl | rfl <;> rfl

theorem execute_spares (fetched : Fetched chunk before frame below fn instr) (accepted : ¬ before.Refuses instr) {text : Fault}
    (isText : instr.op.immFault = some text) :
    Raises (Spared text fn.numRegisters.toNat) (execute instr) (before.advanced frame below) := by
  have at_ := fetched.at_
  have sized := fetched.sized
  have checked := at_.verified.instruction _ _ at_.found
  cases isOp : instr.op
  all_goals rw [isOp] at isText
  all_goals cases isText
  case receiveMatchImm =>
    simp only [execute, isOp]
    exact raises_reading_bind (tag_no_error (verified_tag_imm at_ (Or.inl isOp))) fun _ _ => raises_pure _
  case receiveMatchImmTimeout =>
    simp only [Refuses, isOp] at accepted
    have fits : 0 ≤ instr.imm.toInt ∧ instr.imm.toInt < 2 ^ 16 := by
      by_contra outside
      exact accepted (if_neg outside)
    simp only [execute, isOp]
    exact raises_reading_bind (tag_no_error (tag_imm_ok instr.imm fits)) fun _ _ =>
      raises_reading_bind (read_error (get_reg_spares sized) (ranged_spares (by decide))) fun _ _ => raises_pure _
  case receiveMatchCorrImm =>
    simp only [execute, isOp]
    exact raises_reading_bind (tag_no_error (verified_tag_imm at_ (Or.inr isOp))) fun _ _ =>
      raises_reading_bind (read_error (get_reg_spares sized) (ranged_spares (by decide))) fun _ _ => raises_pure _
  case listPack | recordPack =>
    simp only [verifyInstruction, isOp] at checked
    have length := check_pack_ok checked
    simp only [execute, isOp]
    exact raises_bind (pack_spares sized ⟨length.1, length.2.1⟩) fun _ _ _ => raises_pure _
  case mapPack =>
    simp only [verifyInstruction, isOp] at checked
    have length := check_pack_ok checked
    simp only [execute, isOp]
    exact raises_bind (map_pack_spares sized ⟨length.1, length.2.1⟩) fun _ _ _ => raises_pure _
  case listGet | recordGet =>
    simp only [Refuses, isOp] at accepted
    simp only [execute, isOp]
    exact raises_bind (get_item_spares sized (by decide) accepted) fun _ _ _ => raises_pure _
  case receiveMatchKind =>
    have fits : 0 ≤ instr.imm.toInt ∧ instr.imm.toInt ≤ 10 := by
      by_contra outside
      simp only [verifyInstruction, isOp, if_neg outside] at checked
      cases checked
    obtain ⟨kind, isKind, value⟩ := u8_imm_ok instr.imm ⟨fits.1, by omega⟩
    have known : kind ≤ 10 := by
      change kind.toNat ≤ 10
      omega
    simp only [execute, isOp, isKind, if_pos known]
    exact raises_pure _
  case receiveMatchCmp =>
    simp only [verifyInstruction, isOp] at checked
    simp only [execute, isOp]
    refine raises_reading_bind (read_error (get_reg_spares sized) (ranged_spares (by decide))) fun _ _ =>
      raises_reading_bind (read_error (get_reg_spares sized) (int_spares (by decide))) fun _ _ => ?_
    cases isCmp : IntCmp.fromImm instr.imm with
    | none =>
      rw [isCmp] at checked
      cases checked
    | some cmp => exact raises_pure _
  case setRestartPolicy =>
    have fits : 0 ≤ instr.imm.toInt ∧ instr.imm.toInt ≤ 2 := by
      by_contra outside
      simp only [verifyInstruction, isOp, if_neg outside] at checked
      cases checked
    simp only [execute, isOp, if_pos fits]
    exact raises_pure _
  case startChild =>
    obtain ⟨_, _, _, policy⟩ := verified_start_child at_.verified at_.found isOp
    simp only [execute, isOp, restart_policy_known instr.b policy]
    exact raises_get_bind (raises_ite _ (fun _ => raises_throw _ ⟨by rintro ⟨⟩, by rintro _ _ ⟨⟩⟩) fun _ => raises_pure _)
  case startSupervisor =>
    simp only [Refuses, isOp, not_not] at accepted
    obtain ⟨strategy, isStrategy, value⟩ := u8_imm_ok instr.imm ⟨accepted.1, by omega⟩
    have known : ¬ strategy > 2 := by
      change ¬ 2 < strategy.toNat
      omega
    simp only [execute, isOp, isStrategy, if_neg known]
    exact raises_pure _
  case hostAwait =>
    simp only [Refuses, isOp] at accepted
    simp only [execute, isOp]
    refine raises_reading_bind (get_reg_spares sized) fun args isArgs => ?_
    refine raises_ite _ (fun negative => absurd ?_ accepted) fun _ => raises_pure _
    have size : frame.registers.length = fn.numRegisters.toNat := at_.size
    rcases get_reg_cases sized instr.b with ⟨inside, _⟩ | ⟨_, missing⟩
    · exact ⟨negative, frame, below, fetched.frames, size ▸ inside⟩
    · cases missing.symm.trans isArgs
  case askTimeout =>
    obtain ⟨millisReg, isMillis, _⟩ := verified_ask_timeout at_.verified (function_mem at_.known) at_.inside at_.found isOp
    simp only [execute, isOp, isMillis]
    exact raises_reading_bind (read_error (get_reg_spares sized) (ranged_spares (by decide))) fun _ _ =>
      raises_reading_bind (read_error (get_reg_spares sized) fun _ _ failed => cap_error failed ▸ other_text (by decide)) fun _ _ =>
        raises_reading_bind (read_error (get_reg_spares sized) fun _ _ failed => message_error failed ▸ other_text (by decide)) fun _ _ => raises_pure _

theorem pack_text {op : Opcode} {width : Nat} (isWidth : op.packWidth = some width) : ∃ text, op.immFault = some text := by
  unfold Opcode.packWidth at isWidth
  split at isWidth <;> first | exact ⟨_, rfl⟩ | cases isWidth

theorem child_index_of_accepted (fetching : before.nextInstruction = some instr) (accepted : ¬ before.Refuses instr) :
    before.ChildIndexFits := by
  intro other sameInstr isOp
  cases fetching.symm.trans sameInstr
  simp only [Refuses, isOp] at accepted
  omega

theorem faults_on_imm_iff (verified : Verified chunk) (running : Running chunk before.shape) :
    before.FaultsOnImm ↔ before.ImmRefused := by
  constructor
  · rintro ⟨instr, fault, after, fetching, failed, blames⟩
    obtain ⟨frame, below, fn, fetched⟩ := step_fetched verified running fetching
    by_contra unrefused
    have accepted : ¬ before.Refuses instr := fun refused => unrefused ⟨instr, fetching, Or.inl refused⟩
    have within : ¬ before.PacksPast instr := fun past => unrefused ⟨instr, fetching, Or.inr past⟩
    have spared {text : Fault} (isText : instr.op.immFault = some text) :=
      execute_spares fetched accepted isText fault after (fetched.stepped ▸ failed)
    rcases blames.resolve_right within with text | ⟨width, reg, size, isWidth, rfl, low, high⟩ | other
    · exact (spared text).1 rfl
    · obtain ⟨text, isText⟩ := pack_text isWidth
      have outside := (spared isText).2 reg size rfl
      have length : frame.registers.length = fn.numRegisters.toNat := fetched.at_.size
      have some_ : instr.imm.toInt.toNat ≠ 0 := by
        intro empty
        rw [empty] at high
        omega
      exact within ⟨width, frame, below, isWidth, fetched.frames, by omega, by omega⟩
    · have ends := step_continues verified before running (child_index_of_accepted fetching accepted)
      rw [failed] at ends
      have tame : fault.isStructural = false := ends.1
      split at other
      case h_11 isOp => exact ask_timeout_fault fetched isOp failed other
      case h_12 => exact other
      all_goals cases tame
  · rintro ⟨instr, fetching, refused⟩
    obtain ⟨frame, below, fn, fetched⟩ := step_fetched verified running fetching
    rcases refused with refused | past
    · obtain ⟨fault, after, failed, blames⟩ := refused_faults fetched refused
      exact ⟨instr, fault, after, fetching, failed, Or.inl blames⟩
    · rcases ran : exec step before with ⟨fault | result, after⟩
      · exact ⟨instr, fault, after, fetching, ran, Or.inr past⟩
      · exact absurd past (pack_returns_inside fetched (fetched.stepped ▸ ran))

end Accepted

end Vm

namespace Flow

theorem verified_immediates_iff (layout : Layout) (chunk : Chunk) (config : VerifyConfig)
    (accepted : verifyWith chunk config = .ok ()) (natives : NativeTable) (contract : natives.ReportsOnly)
    (nativeGate : NativeGate) (function : UInt32) (known : function.toNat < chunk.functions.length) (args : List Value)
    (events : List FlowEvent) :
    (∀ before ∈ (start layout chunk natives nativeGate function args).steps events, ¬ before.FaultsOnImm) ↔
      ∀ before ∈ (start layout chunk natives nativeGate function args).steps events, ¬ before.ImmRefused := by
  have verified := verify_with_verified chunk config accepted
  have running := steps_running verified _ (start_live layout verified natives contract nativeGate function known args) events
  exact forall₂_congr fun before member => not_congr (Vm.faults_on_imm_iff verified (running before member))

def immediate (op : Opcode) (imm : Int32) : Chunk :=
  { name := "immediate", constants := [], code := [{ op := op, a := 0, b := 0, c := 0, imm := imm }],
    functions := [{ name := "main", entry := 0, arity := 0, numRegisters := 1 }] }

theorem empty_reports : (⟨[]⟩ : NativeTable).ReportsOnly := by
  intro index native found
  simp [NativeTable.get] at found

theorem small_immediate_accepted :
    (start .word (immediate .receiveMatchImmTimeout 7) ⟨[]⟩ (.deny 0) 0 []).steps [.slice 4] ≠ [] ∧
      ∀ before ∈ (start .word (immediate .receiveMatchImmTimeout 7) ⟨[]⟩ (.deny 0) 0 []).steps [.slice 4],
        ¬ before.FaultsOnImm := by
  refine ⟨List.cons_ne_nil _ _, ?_⟩
  refine (verified_immediates_iff .word (immediate .receiveMatchImmTimeout 7) ⟨.untrusted⟩ rfl ⟨[]⟩ empty_reports
    (.deny 0) 0 (by decide) [] [.slice 4]).mpr ?_
  refine List.forall_mem_singleton.mpr ?_
  rintro ⟨instr, fetching, refused | ⟨_, _, _, isWidth, _⟩⟩
  · cases fetching
    cases refused
  · cases fetching
    cases isWidth

theorem unchecked_immediates_fault :
    (verifyWith (immediate .receiveMatchImmTimeout 65536) ⟨.untrusted⟩ = .ok () ∧
      ∃ vm, (start .word (immediate .receiveMatchImmTimeout 65536) ⟨[]⟩ (.deny 0) 0 []).play [.slice 4] =
        .trapped (.typeMismatch "tag u16" "imm-out-of-range") vm) ∧
    (verifyWith (immediate .startSupervisor 3) ⟨.untrusted⟩ = .ok () ∧
      ∃ vm, (start .word (immediate .startSupervisor 3) ⟨[]⟩ (.deny 0) 0 []).play [.slice 4] =
        .trapped (.typeMismatch "strategy 0..=2" "imm-out-of-range") vm) ∧
    (verifyWith (immediate .listPack 2) ⟨.untrusted⟩ = .ok () ∧
      ∃ vm, (start .word (immediate .listPack 2) ⟨[]⟩ (.deny 0) 0 []).play [.slice 4] =
        .trapped (.registerOutOfRange 1 1) vm) ∧
    (verifyWith (immediate .hostAwait (-1)) ⟨.untrusted⟩ = .ok () ∧
      ∃ vm, (start .word (immediate .hostAwait (-1)) ⟨[]⟩ (.deny 0) 0 []).play [.slice 4] =
        .trapped (.typeMismatch "HostAwait op >= 0" "imm-negative") vm) ∧
    ∃ before ∈ (start .word (immediate .receiveMatchImmTimeout 65536) ⟨[]⟩ (.deny 0) 0 []).steps [.slice 4],
      before.FaultsOnImm := by
  refine ⟨⟨rfl, _, rfl⟩, ⟨rfl, _, rfl⟩, ⟨rfl, _, rfl⟩, ⟨rfl, _, rfl⟩, _, List.mem_cons_self, ?_⟩
  exact ⟨_, _, _, rfl, rfl, Or.inl (Or.inl rfl)⟩

end Flow

end Byteflow
