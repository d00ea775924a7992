import Byteflow.MachineShape

namespace Byteflow

open Exec

theorem checked_charge_charged {α : Type} (result : Option Nat) (next : Nat → Except Fault α)
    (charged : ∀ total, Charged (next total)) :
    Charged (match result with | some total => next total | none => .error heapChargeDoesNotFit) := by
  cases result with
  | none => exact charged_error _
  | some total => exact charged total

-- Structural recursion along the nested value, one theorem per nested list.
mutual
theorem charge_walk_charged (layout : Layout) (depth : Nat) (value : Value) : Charged (value.chargeWalk layout depth) := by
  rw [Value.chargeWalk.eq_def]
  by_cases deep : depth > MAX_VALUE_DEPTH
  · rw [if_pos deep]
    exact charged_error _
  · rw [if_neg deep]
    cases value with
    | unit | bool | int | float | pid | cap | str | bytes => exact charged_ok _
    | message hop => exact payload_charge_charged layout (depth + 1) hop
    | list items =>
      dsimp only
      cases layout.checkedMul items.length layout.sizeOfValue with
      | none => exact charged_error _
      | some sum => exact items_charge_charged layout (depth + 1) sum items
    | map entries =>
      dsimp only
      cases layout.checkedMul entries.length layout.sizeOfValue with
      | none => exact charged_error _
      | some sum => exact entries_charge_charged layout (depth + 1) sum entries
    | record fields =>
      dsimp only
      cases layout.checkedMul fields.length layout.sizeOfValue with
      | none => exact charged_error _
      | some sum => exact items_charge_charged layout (depth + 1) sum fields

theorem payload_charge_charged (layout : Layout) (depth : Nat) (hop : Envelope Value) :
    Charged (payloadCharge layout depth hop) := by
  cases hop with
  | mk sender replyCap requestId tag payload => exact charge_walk_charged layout depth payload

theorem items_charge_charged (layout : Layout) (depth sum : Nat) (items : List Value) :
    Charged (itemsCharge layout depth sum items) := by
  cases items with
  | nil => exact charged_ok _
  | cons item rest =>
    rw [itemsCharge]
    refine charged_bind _ _ (charge_walk_charged layout depth item) (fun part => ?_)
    cases layout.checkedAdd sum part with
    | none => exact charged_error _
    | some total => exact items_charge_charged layout depth total rest

theorem entries_charge_charged (layout : Layout) (depth sum : Nat) (entries : List (MapKey × Value)) :
    Charged (entriesCharge layout depth sum entries) := by
  cases entries with
  | nil => exact charged_ok _
  | cons entry rest =>
    rw [entriesCharge]
    exact charged_bind _ _ (entry_charge_charged layout depth sum entry)
      (fun total => entries_charge_charged layout depth total rest)

theorem entry_charge_charged (layout : Layout) (depth sum : Nat) (entry : MapKey × Value) :
    Charged (entryCharge layout depth sum entry) := by
  obtain ⟨key, value⟩ := entry
  have valueCharged := charge_walk_charged layout depth value
  cases key with
  | int n =>
    rw [entryCharge]
    exact charged_bind _ _ valueCharged (fun part => checked_charge_charged _ _ charged_ok)
  | str text =>
    rw [entryCharge]
    cases layout.checkedAdd sum text.utf8ByteSize with
    | none => exact charged_error _
    | some total => exact charged_bind _ _ valueCharged (fun part => checked_charge_charged _ _ charged_ok)
end

theorem heap_charge_of_charged (layout : Layout) (value : Value) : Charged (heapChargeOf layout value) :=
  charge_walk_charged layout 0 value

theorem heap_charge_of_tame (layout : Layout) (value : Value) : Tame (heapChargeOf layout value) :=
  tame_of_charged (heap_charge_of_charged layout value)

namespace Vm

theorem ready_frames (vm : Vm) (ready : vm.shape.Ready) : ∃ frame below, vm.frames = frame :: below := by
  cases frames : vm.frames with
  | nil => exact absurd (by simp [shape, frames]) ready.1
  | cons frame below => exact ⟨frame, below, rfl⟩

theorem current_tame (vm : Vm) (ready : vm.shape.Ready) : Tame vm.current := by
  obtain ⟨frame, below, frames⟩ := ready_frames vm ready
  simp only [current, frames]
  exact tame_ok frame

theorem get_reg_tame (reg : UInt8) (vm : Vm) (ready : vm.shape.Ready) : Tame (vm.getReg reg) := by
  refine tame_bind _ _ (current_tame vm ready) (fun frame _ => ?_)
  cases frame.registers[reg.toNat]? with
  | none => exact tame_error _ rfl
  | some value => exact tame_ok value

theorem get_reg_quiet (reg : UInt8) : Quiet (reading (getReg reg)) := steady_reading _ (get_reg_tame reg)

theorem read_value_quiet {α : Type} (f : Value → Except Fault α) (reg : UInt8) (tame : ∀ value, Tame (f value)) :
    Quiet (reading fun vm => vm.getReg reg >>= f) :=
  steady_reading _ fun vm ready => tame_bind _ _ (get_reg_tame reg vm ready) (fun value _ => tame value)

theorem pure_reading_steady {α : Type} {S : Shape → Prop} (result : Except Fault α) (tame : Tame result) :
    Steady S (reading fun _ : Vm => result) := steady_reading _ fun _ _ => tame

theorem gather_regs_tame (base argc : UInt8) (firstOffset : Nat) (vm : Vm) (ready : vm.shape.Ready)
    (window : argc.toNat = 0 ∨ base.toNat + firstOffset + argc.toNat ≤ 256) :
    Tame (vm.gatherRegs base argc firstOffset) := by
  refine tame_mapM _ _ (fun i member => ?_)
  have below := List.mem_range.mp member
  have fits : base.toNat + (firstOffset + i) < 256 := by omega
  rw [regAt, if_pos fits]
  exact get_reg_tame _ vm ready

end Vm

theorem require_int_tame (value : Value) : Tame (requireInt value) := by
  cases value <;> first | exact tame_ok _ | exact tame_error _ rfl

theorem as_f64_tame (value : Value) : Tame (asF64 value) := by
  cases value <;> first | exact tame_ok _ | exact tame_error _ rfl

theorem tag_from_imm_tame (imm : Int32) : Tame (tagFromImm imm) := by
  unfold tagFromImm
  cases u16TryFrom imm with
  | none => exact tame_error _ rfl
  | some tag => exact tame_ok tag

theorem tame_ite {α : Type} (c : Prop) [Decidable c] (yes no : Except Fault α) (whenTrue : Tame yes)
    (whenFalse : Tame no) : Tame (if c then yes else no) := by
  split
  · exact whenTrue
  · exact whenFalse

theorem tag_from_value_tame (value : Value) : Tame (tagFromValue value) :=
  tame_bind _ _ (require_int_tame value) fun _ _ => tame_ite _ _ _ (tame_ok _) (tame_error _ rfl)

theorem request_id_from_value_tame (value : Value) : Tame (requestIdFromValue value) :=
  tame_bind _ _ (require_int_tame value) fun _ _ => tame_ite _ _ _ (tame_ok _) (tame_error _ rfl)

theorem duration_from_value_tame (value : Value) : Tame (durationFromValue value) :=
  tame_bind _ _ (require_int_tame value) fun _ _ => tame_ite _ _ _ (tame_ok _) (tame_error _ rfl)

theorem dict_owned_bytes_tame (value : Value) : Tame (dictOwnedBytes value) := by
  cases value <;> first | exact tame_ok _ | exact tame_error _ rfl

theorem quota_alloc_charged (layout : Layout) (quota : FlowQuota) (bytes : Nat) : Charged (quota.alloc layout bytes) := by
  unfold FlowQuota.alloc
  dsimp only
  cases layout.checkedAdd quota.memUsed bytes with
  | none => exact charged_error _
  | some next => exact charged_ite _ (charged_error _) (charged_ok _)

theorem memory_try_charge_charged (layout : Layout) (memory : MemoryBudget) (bytes : Nat) :
    Charged (memory.tryCharge layout bytes) := by
  refine charged_ite _ (charged_ok _) ?_
  cases layout.checkedAdd memory.used bytes with
  | none => exact charged_error _
  | some next => exact charged_ite _ (charged_error _) (charged_ok _)

theorem charge_pair_charged (layout : Layout) (quota : FlowQuota) (memory : Option MemoryBudget) (bytes : Nat) :
    Charged (chargePair layout quota memory bytes) := by
  refine charged_ite _ (charged_ok _) (charged_bind _ _ (quota_alloc_charged layout quota bytes) fun charged => ?_)
  cases memory with
  | none => exact charged_ok _
  | some budget => exact charged_bind _ _ (memory_try_charge_charged layout budget bytes) fun _ => charged_ok _

namespace Vm

theorem charge_still (bytes : Nat) : Still (charge bytes) := by
  refine steady_get_bind fun vm _ => ?_
  cases vm.quota with
  | none => exact steady_pure _
  | some quota =>
    dsimp only
    have tame := tame_of_charged (charge_pair_charged vm.layout quota vm.memory bytes)
    cases charged : chargePair vm.layout quota vm.memory bytes with
    | error fault => exact steady_throw fault (tame fault charged)
    | ok pair => exact steady_modify _ fun _ same => same.symm

theorem release_still (bytes : Nat) : Still (release bytes) := by
  refine steady_modify _ fun vm _ => ?_
  cases vm.quota <;> rfl

theorem current_ok (vm : Vm) (frame : Frame) (found : vm.current = .ok frame) : ∃ below, vm.frames = frame :: below := by
  cases frames : vm.frames with
  | nil => simp [current, frames] at found
  | cons top below =>
    have same : top = frame := by simpa [current, frames] using found
    exact ⟨below, by rw [same]⟩

theorem set_top_steady (vm : Vm) (frame next : Frame) (found : vm.current = .ok frame)
    (same : next.shape = frame.shape) : Steady (fun shape => shape = vm.shape) (modify (setTop next) : VmM Unit) := by
  refine steady_modify _ fun other sameShape => ?_
  obtain ⟨below, frames⟩ := current_ok vm frame found
  have otherFrames : other.frames.map Frame.shape = frame.shape :: below.map Frame.shape := by
    simpa [shape, frames] using congrArg Shape.frames sameShape
  cases listed : other.frames with
  | nil => simp [listed] at otherFrames
  | cons top rest =>
    have topShape : top.shape = frame.shape := by
      rw [listed] at otherFrames
      exact (List.cons.inj otherFrames).1
    simp [setTop, shape, listed, topShape, same]

theorem write_shape (frame : Frame) (index : Nat) (value : Value) : (frame.write index value).shape = frame.shape := by
  simp [Frame.write, Frame.shape]

theorem try_add_heap_charge_shape (layout : Layout) (frame next : Frame) (delta : Nat)
    (added : frame.tryAddHeapCharge layout delta = some next) : next.shape = frame.shape := by
  unfold Frame.tryAddHeapCharge at added
  obtain ⟨total, _, rfl⟩ := Option.map_eq_some_iff.mp added
  rfl

theorem set_reg_quiet (reg : UInt8) (value : Value) : Quiet (setReg reg value) := by
  refine steady_reading_bind current_tame fun vm frame ready found => ?_
  have readyShape : ∀ shape, shape = vm.shape → shape.Ready := fun shape same => same ▸ ready
  have store : ∀ next : Frame, next.shape = frame.shape →
      Steady (fun shape => shape = vm.shape) (modify (setTop (next.write reg.toNat value)) : VmM Unit) :=
    fun next same => set_top_steady vm frame _ found ((write_shape next _ _).trans same)
  refine steady_bind (steady_mono (get_reg_quiet reg) readyShape) fun old => ?_
  refine steady_ite _ (fun _ => store frame rfl) fun _ => ?_
  refine steady_bind (m := get) (fun shape _ => fun _ same => same) fun current => ?_
  refine steady_bind (pure_reading_steady _ (heap_charge_of_tame _ _)) fun oldBytes => ?_
  refine steady_bind (pure_reading_steady _ (heap_charge_of_tame _ _)) fun newBytes => ?_
  refine steady_ite _ (fun _ => ?_) fun _ => steady_ite _ (fun _ => ?_) fun _ => store frame rfl
  · refine steady_bind (steady_of_still (charge_still _)) fun _ => ?_
    cases added : frame.tryAddHeapCharge current.layout (newBytes - oldBytes) with
    | none => exact steady_bind (steady_of_still (release_still _)) fun _ => steady_throw _ rfl
    | some next => exact store next (try_add_heap_charge_shape _ _ _ _ added)
  · exact steady_bind (steady_of_still (release_still _)) fun _ => store _ rfl

end Vm

end Byteflow
