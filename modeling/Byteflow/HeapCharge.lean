import Byteflow.InterpreterQuiet
import Byteflow.Transition

namespace Byteflow

open List Exec Transition

def chargeOf (layout : Layout) (value : Value) : Nat :=
  match heapChargeOf layout value with
  | .ok bytes => bytes
  | .error _ => 0

structure Frame.Charged (layout : Layout) (frame : Frame) : Prop where
  each : ∀ value ∈ frame.registers, heapChargeOf layout value = .ok (chargeOf layout value)
  total : frame.heapCharge = (frame.registers.map (chargeOf layout)).sum

-- Only the bottom frame completes the flow.
def Rooted : List Frame → Prop
  | [] => True
  | frame :: below => (frame.destReg = none → below = []) ∧ Rooted below

-- An account shows base and the bytes of this flow. A flow that holds any was
-- let in under the limit.
def Covers (used limit usizeMax base bytes : Nat) : Prop :=
  used = base + bytes ∧ (bytes = 0 ∨ used ≤ limit ∧ used ≤ usizeMax)

namespace Vm

-- base is what the quota and the process budget showed before the flow was attached.
structure Pays (base : Nat × Nat) (bytes : Nat) (vm : Vm) : Prop where
  quota : ∃ quota, vm.quota = some quota ∧ Covers quota.memUsed quota.memLimit vm.layout.usizeMax base.1 bytes
  memory : ∃ memory, vm.memory = some memory ∧ Covers memory.used memory.limit vm.layout.usizeMax base.2 bytes

def frameBytes (vm : Vm) : Nat := (vm.frames.map (·.heapCharge)).sum

-- Every frame is charged for its registers, and the accounts hold that and extra bytes.
structure Paid (base : Nat × Nat) (extra : Nat) (vm : Vm) : Prop where
  charged : ∀ frame ∈ vm.frames, frame.Charged vm.layout
  pays : vm.Pays base (vm.frameBytes + extra)
  rooted : Rooted vm.frames

structure SameDict (before after : Vm) : Prop where
  layout : after.layout = before.layout
  dict : after.dict = before.dict
  dictBytes : after.dictBytes = before.dictBytes

end Vm

section Values

variable (layout : Layout) (value : Value)

theorem heap_charge_chargeable {bytes : Nat} (charge : heapChargeOf layout value = .ok bytes) :
    chargeOf layout value = bytes := by
  rw [chargeOf, charge]

theorem scalar_charge (scalar : value.isScalar = true) : heapChargeOf layout value = .ok 0 := by
  cases value with
  | unit | bool _ | int _ | float _ | pid _ | cap _ => simp [heapChargeOf, Value.chargeWalk]
  | _ => cases scalar

end Values

namespace Frame

variable {layout : Layout} {frame : Frame} {index : Nat} {old value : Value}

theorem charged_write (charged : frame.Charged layout) (held : frame.registers[index]? = some old)
    (chargeable : heapChargeOf layout value = .ok (chargeOf layout value)) {next : Frame}
    (registers : next.registers = frame.registers)
    (moved : next.heapCharge + chargeOf layout old = frame.heapCharge + chargeOf layout value) :
    (next.write index value).Charged layout := by
  refine ⟨fun other member => ?_, ?_⟩
  · change other ∈ next.registers.set index value at member
    rw [registers] at member
    rcases mem_or_eq_of_mem_set member with inside | rfl
    · exact charged.each other inside
    · exact chargeable
  · change next.heapCharge = ((next.registers.set index value).map (chargeOf layout)).sum
    have sums := sum_map_set (chargeOf layout) frame.registers index old value held
    have total := charged.total
    rw [registers]
    omega

theorem charged_le (charged : frame.Charged layout) (member : value ∈ frame.registers) :
    chargeOf layout value ≤ frame.heapCharge := by
  rw [charged.total]
  exact le_sum_map (chargeOf layout) frame.registers value member

theorem new_charged (function : UInt32) (numRegisters : UInt8) (destReg : Option UInt8) :
    (Frame.new function numRegisters destReg).Charged layout := by
  have free : chargeOf layout .unit = 0 := heap_charge_chargeable layout .unit (scalar_charge layout .unit rfl)
  refine ⟨fun other member => ?_, ?_⟩
  · rw [eq_of_mem_replicate member, free]
    exact scalar_charge layout .unit rfl
  · simp [Frame.new, free]

end Frame

namespace Vm

variable {vm after : Vm} {base : Nat × Nat} {bytes extra delta : Nat} {top : Frame} {below : List Frame}

def withAccounts (vm : Vm) (quota : Option FlowQuota) (memory : Option MemoryBudget) : Vm :=
  { vm with quota := quota, memory := memory }

theorem charge_pair_ok {layout : Layout} {quota : FlowQuota} {memory : Option MemoryBudget}
    {pair : FlowQuota × Option MemoryBudget} (charged : chargePair layout quota memory delta = .ok pair) :
    delta = 0 ∧ pair = (quota, memory) ∨
      pair = ({ quota with memUsed := quota.memUsed + delta }, memory.map fun budget => { budget with used := budget.used + delta }) ∧
        (quota.memUsed + delta ≤ quota.memLimit ∧ quota.memUsed + delta ≤ layout.usizeMax) ∧
        ∀ budget, memory = some budget → budget.used + delta ≤ budget.limit ∧ budget.used + delta ≤ layout.usizeMax := by
  rw [chargePair] at charged
  by_cases nothing : delta = 0
  · rw [if_pos nothing] at charged
    exact Or.inl ⟨nothing, (Except.ok.inj charged).symm⟩
  rw [if_neg nothing] at charged
  obtain ⟨grown, alloc, charged⟩ := (except_bind_ok_iff _ _ _).mp charged
  have quotaGrows : grown = { quota with memUsed := quota.memUsed + delta } ∧ quota.memUsed + delta ≤ quota.memLimit ∧
      quota.memUsed + delta ≤ layout.usizeMax := by
    simp only [FlowQuota.alloc, Layout.checkedAdd] at alloc
    by_cases fits : quota.memUsed + delta ≤ layout.usizeMax
    · simp only [if_pos fits] at alloc
      split_ifs at alloc
      exact ⟨(Except.ok.inj alloc).symm, by omega, fits⟩
    · simp only [if_neg fits] at alloc
      cases alloc
  refine Or.inr ?_
  rw [quotaGrows.1] at charged
  cases memory with
  | none => exact ⟨(Except.ok.inj charged).symm, quotaGrows.2, fun _ none => by cases none⟩
  | some budget =>
    obtain ⟨more, tried, charged⟩ := (except_bind_ok_iff _ _ _).mp charged
    simp only [MemoryBudget.tryCharge, if_neg nothing, Layout.checkedAdd] at tried
    by_cases fits : budget.used + delta ≤ layout.usizeMax
    · simp only [if_pos fits] at tried
      split_ifs at tried
      cases tried
      refine ⟨(Except.ok.inj charged).symm, quotaGrows.2, fun _ same => ?_⟩
      cases same
      exact ⟨by omega, fits⟩
    · simp only [if_neg fits] at tried
      cases tried

theorem exec_charge {quota : FlowQuota} (attached : vm.quota = some quota) :
    exec (charge delta) vm = match chargePair vm.layout quota vm.memory delta with
      | .error fault => (.error fault, vm)
      | .ok pair => (.ok (), vm.withAccounts (some pair.1) pair.2) := by
  rw [charge, exec_get_bind]
  rw [attached]
  dsimp only
  cases chargePair vm.layout quota vm.memory delta <;> rfl

def released (vm : Vm) (delta : Nat) : Vm :=
  vm.withAccounts (vm.quota.map fun quota => { quota with memUsed := quota.memUsed - delta })
    (match vm.quota with
      | none => vm.memory
      | some _ => vm.memory.map fun memory => { memory with used := memory.used - delta })

theorem released_zero : vm.released 0 = vm := by
  obtain ⟨layout, chunk, natives, gate, frames, count, nextId, quota, memory, dict, dictBytes⟩ := vm
  cases quota <;> cases memory <;> rfl

theorem charge_undone (delta : Nat) :
    Ends (fun _ after => after.released delta = vm ∧ ∃ quota memory, after = vm.withAccounts quota memory)
      (fun _ after => after = vm) (exec (charge delta) vm) := by
  obtain ⟨layout, chunk, natives, gate, frames, count, nextId, quota, memory, dict, dictBytes⟩ := vm
  cases quota with
  | none => exact ⟨rfl, none, memory, rfl⟩
  | some quota =>
    rw [exec_charge rfl]
    cases charged : chargePair layout quota memory delta with
    | error fault => exact rfl
    | ok pair =>
      rcases charge_pair_ok charged with ⟨rfl, rfl⟩ | ⟨rfl, _⟩
      · exact ⟨released_zero, _, _, rfl⟩
      · refine ⟨?_, _, _, rfl⟩
        cases memory <;> simp [released, withAccounts]

theorem charge_ends (delta : Nat) (pays : vm.Pays base bytes) :
    Ends (fun _ after => after.Pays base (bytes + delta) ∧ after.released delta = vm ∧
        ∃ quota memory, after = vm.withAccounts quota memory)
      (fun _ after => after = vm) (exec (charge delta) vm) := by
  obtain ⟨⟨quota, attached, quotaUsed, quotaIn⟩, memory, hasMemory, memoryUsed, memoryIn⟩ := pays
  have undone : Ends _ _ (exec (charge delta) vm) := charge_undone delta
  rw [exec_charge attached, hasMemory] at undone ⊢
  cases charged : chargePair vm.layout quota (some memory) delta with
  | error fault => exact rfl
  | ok pair =>
    rw [charged] at undone
    refine ⟨?_, undone⟩
    rcases charge_pair_ok charged with ⟨rfl, rfl⟩ | ⟨rfl, quotaFits, memoryFits⟩
    · exact ⟨⟨quota, rfl, quotaUsed, quotaIn⟩, memory, rfl, memoryUsed, memoryIn⟩
    · refine ⟨⟨_, rfl, ?_, Or.inr quotaFits⟩, _, rfl, ?_, Or.inr (memoryFits memory rfl)⟩
      · rw [quotaUsed, Nat.add_assoc]
      · dsimp only
        rw [memoryUsed, Nat.add_assoc]

theorem exec_release : exec (release delta) vm = (.ok (), vm.released delta) := by
  rw [release, exec_modify]
  cases attached : vm.quota with
  | none =>
    have same : vm.released delta = vm := by
      obtain ⟨layout, chunk, natives, gate, frames, count, nextId, held, budget, dict, dictBytes⟩ := vm
      cases attached
      rfl
    rw [same]
  | some quota =>
    by_cases nothing : delta = 0
    · cases memory : vm.memory <;> simp [releasePair, released, withAccounts, attached, memory, nothing]
    · simp [releasePair, released, withAccounts, attached, nothing, FlowQuota.free, MemoryBudget.release]

theorem covers_less {used limit usizeMax own : Nat} (covers : Covers used limit usizeMax own bytes) (held : delta ≤ bytes) :
    Covers (used - delta) limit usizeMax own (bytes - delta) := by
  obtain ⟨total, within⟩ := covers
  refine ⟨by omega, within.imp (fun none => by omega) fun ⟨limited, fits⟩ => ?_⟩
  omega

theorem released_pays (pays : vm.Pays base bytes) (held : delta ≤ bytes) : (vm.released delta).Pays base (bytes - delta) := by
  obtain ⟨⟨quota, attached, quotaCovers⟩, memory, hasMemory, memoryCovers⟩ := pays
  refine ⟨⟨{ quota with memUsed := quota.memUsed - delta }, ?_, covers_less quotaCovers held⟩,
    { memory with used := memory.used - delta }, ?_, covers_less memoryCovers held⟩
  · simp [released, withAccounts, attached]
  · simp [released, withAccounts, attached, hasMemory]

def Backs (vm : Vm) (bytes : Nat) : Prop :=
  ∀ quota, vm.quota = some quota →
    (bytes ≤ quota.memUsed ∧ quota.memUsed ≤ quota.memLimit ∧ quota.memUsed ≤ vm.layout.usizeMax) ∧
    ∀ memory, vm.memory = some memory →
      bytes ≤ memory.used ∧ memory.used ≤ memory.limit ∧ memory.used ≤ vm.layout.usizeMax

theorem backs_less (backs : vm.Backs bytes) (held : delta ≤ bytes) : vm.Backs delta := by
  intro quota attached
  obtain ⟨inQuota, inMemory⟩ := backs quota attached
  exact ⟨⟨by omega, inQuota.2⟩, fun memory found => ⟨by have := (inMemory memory found).1; omega, (inMemory memory found).2⟩⟩

theorem pays_backs (pays : vm.Pays base bytes) (some_ : 0 < bytes) : vm.Backs bytes := by
  obtain ⟨⟨quota, attached, quotaUsed, quotaIn⟩, memory, hasMemory, memoryUsed, memoryIn⟩ := pays
  intro other same
  cases attached.symm.trans same
  refine ⟨⟨by omega, quotaIn.resolve_left (by omega)⟩, fun budget same => ?_⟩
  cases hasMemory.symm.trans same
  exact ⟨by omega, memoryIn.resolve_left (by omega)⟩

theorem released_charge (backs : vm.Backs delta) : exec (charge delta) (vm.released delta) = (.ok (), vm) := by
  obtain ⟨layout, chunk, natives, gate, frames, count, nextId, quota, memory, dict, dictBytes⟩ := vm
  cases quota with
  | none => rfl
  | some quota =>
    obtain ⟨⟨held, quotaFits⟩, inMemory⟩ := backs quota rfl
    rw [exec_charge rfl]
    by_cases nothing : delta = 0
    · subst nothing
      cases memory <;> rfl
    have quotaBack : quota.memUsed - delta + delta = quota.memUsed := by omega
    cases memory with
    | none => simp [released, withAccounts, chargePair, nothing, FlowQuota.alloc, Layout.checkedAdd, quotaBack, quotaFits,
        Nat.not_lt.mpr, bind, Except.bind]
    | some memory =>
      obtain ⟨heldThere, memoryFits⟩ := inMemory memory rfl
      have memoryBack : memory.used - delta + delta = memory.used := by omega
      simp [released, withAccounts, chargePair, nothing, FlowQuota.alloc, MemoryBudget.tryCharge, Layout.checkedAdd,
        quotaBack, memoryBack, quotaFits, memoryFits, Nat.not_lt.mpr, bind, Except.bind]

theorem frames_cons (frames : vm.frames = top :: below) : vm.current = .ok top := by
  rw [current, frames]

theorem get_reg_held {reg : UInt8} {value : Value} (found : vm.getReg reg = .ok value) :
    ∃ top below, vm.frames = top :: below ∧ top.registers[reg.toNat]? = some value := by
  obtain ⟨top, isTop, found⟩ := (except_bind_ok_iff _ _ _).mp found
  obtain ⟨below, frames⟩ := current_ok vm top isTop
  refine ⟨top, below, frames, ?_⟩
  split at found
  · rename_i held
    cases found
    exact held
  · cases found

theorem paid_replace {next : Frame} (paid : vm.Paid base extra) (frames : vm.frames = top :: below)
    (moved : after.Pays base (next.heapCharge + (below.map (·.heapCharge)).sum + extra))
    (layout : after.layout = vm.layout) (listed : after.frames = next :: below) (charged : next.Charged vm.layout)
    (dest : next.destReg = top.destReg) : after.Paid base extra := by
  have all := paid.charged
  have rooted := paid.rooted
  rw [frames] at all rooted
  refine ⟨fun frame member => ?_, ?_, ?_⟩
  · rw [listed] at member
    rw [layout]
    rcases mem_cons.mp member with rfl | inside
    · exact charged
    · exact all frame (mem_cons_of_mem top inside)
  · rw [frameBytes, listed, map_cons, sum_cons]
    exact moved
  · rw [listed]
    exact ⟨dest ▸ rooted.1, rooted.2⟩

theorem frame_bytes_cons (frames : vm.frames = top :: below) :
    vm.frameBytes = top.heapCharge + (below.map (·.heapCharge)).sum := by
  rw [frameBytes, frames, map_cons, sum_cons]

theorem checked_add_some {layout : Layout} {a b total : Nat} (sum : layout.checkedAdd a b = some total) : total = a + b := by
  rw [Layout.checkedAdd] at sum
  split at sum
  · exact (Option.some.inj sum).symm
  · cases sum

theorem set_reg_fails (reg : UInt8) (value : Value) :
    Ends (fun _ _ => True) (fun _ after => after = vm) (exec (setReg reg value) vm) := by
  refine ends_reading_bind (fun top _ => ends_reading_bind (fun old _ => ?_) fun _ _ => rfl) fun _ _ => rfl
  by_cases scalars : (old.isScalar && value.isScalar) = true
  · rw [if_pos scalars]
    trivial
  rw [if_neg scalars, exec_bind, exec_get]
  refine ends_reading_bind (fun oldBytes _ => ?_) fun _ _ => rfl
  refine ends_reading_bind (fun newBytes _ => ?_) fun _ _ => rfl
  by_cases grows : newBytes > oldBytes
  · rw [if_pos grows]
    refine ends_bind (charge_undone _) (fun _ mid ⟨restored, _⟩ => ?_) fun _ _ same => same
    cases top.tryAddHeapCharge vm.layout (newBytes - oldBytes) with
    | none =>
      dsimp only
      rw [exec_bind, exec_release, restored]
      exact rfl
    | some next => trivial
  · rw [if_neg grows]
    by_cases shrinks : oldBytes > newBytes
    · rw [if_pos shrinks, exec_bind, exec_release]
      trivial
    · rw [if_neg shrinks]
      trivial

theorem stored_paid {state : Vm} {index total : Nat} {old value : Value}
    (paid : vm.Paid base extra) (frames : vm.frames = top :: below) (held : top.registers[index]? = some old)
    (chargeable : heapChargeOf vm.layout value = .ok (chargeOf vm.layout value)) (same : SameDict vm state)
    (stateFrames : state.frames = top :: below) (pays : state.Pays base (total + (below.map (·.heapCharge)).sum + extra))
    (moved : total + chargeOf vm.layout old = top.heapCharge + chargeOf vm.layout value) :
    (setTop ({ top with heapCharge := total }.write index value) state).Paid base extra ∧
      SameDict vm (setTop ({ top with heapCharge := total }.write index value) state) := by
  have placed : (setTop ({ top with heapCharge := total }.write index value) state).frames =
      { top with heapCharge := total }.write index value :: below := by
    rw [setTop, stateFrames]
    rfl
  have topCharged : top.Charged vm.layout := paid.charged top (by rw [frames]; exact mem_cons_self)
  refine ⟨paid_replace paid frames ?_ same.layout placed ?_ rfl, same.layout, same.dict, same.dictBytes⟩
  · exact ⟨pays.quota, pays.memory⟩
  · exact Frame.charged_write topCharged held chargeable rfl moved

theorem set_reg_ends (reg : UInt8) (value : Value) (paid : vm.Paid base extra) :
    Ends (fun _ after => after.Paid base extra ∧ SameDict vm after) (fun _ after => after = vm)
      (exec (setReg reg value) vm) := by
  refine ends_reading_bind (fun top isTop => ends_reading_bind (fun old isOld => ?_) fun _ _ => rfl) fun _ _ => rfl
  obtain ⟨frame, below, frames, held⟩ := get_reg_held isOld
  cases (frames_cons frames).symm.trans isTop
  have topCharged : top.Charged vm.layout := paid.charged top (by rw [frames]; exact mem_cons_self)
  have oldCharge := topCharged.each old (mem_of_getElem? held)
  have pays := paid.pays
  rw [frame_bytes_cons frames] at pays
  have itself : SameDict vm vm := ⟨rfl, rfl, rfl⟩
  by_cases scalars : (old.isScalar && value.isScalar) = true
  · rw [if_pos scalars]
    obtain ⟨oldScalar, newScalar⟩ := Bool.and_eq_true_iff.mp scalars
    have free := scalar_charge vm.layout value newScalar
    have oldFree := heap_charge_chargeable _ _ (scalar_charge vm.layout old oldScalar)
    have newFree := heap_charge_chargeable _ _ free
    exact stored_paid paid frames held (by rw [newFree, free]) itself frames pays (by rw [oldFree, newFree])
  rw [if_neg scalars, exec_bind, exec_get]
  refine ends_reading_bind (fun oldBytes isOld => ?_) fun _ _ => rfl
  cases oldCharge.symm.trans isOld
  refine ends_reading_bind (fun newBytes charge => ?_) fun _ _ => rfl
  have new := heap_charge_chargeable _ _ charge
  have chargeable : heapChargeOf vm.layout value = .ok (chargeOf vm.layout value) := by rw [new, charge]
  by_cases grows : newBytes > chargeOf vm.layout old
  · rw [if_pos grows]
    refine ends_bind (charge_ends (newBytes - chargeOf vm.layout old) pays)
      (fun _ mid ⟨midPays, restored, quota, memory, moved⟩ => ?_) fun _ _ same => same
    subst moved
    cases added : top.tryAddHeapCharge vm.layout (newBytes - chargeOf vm.layout old) with
    | none =>
      dsimp only
      rw [exec_bind, exec_release, restored]
      exact rfl
    | some next =>
      obtain ⟨total, sum, rfl⟩ := Option.map_eq_some_iff.mp added
      have isSum := checked_add_some sum
      refine stored_paid paid frames held chargeable ⟨rfl, rfl, rfl⟩ frames ?_ (by omega)
      rw [show total + (below.map (·.heapCharge)).sum + extra =
        top.heapCharge + (below.map (·.heapCharge)).sum + extra + (newBytes - chargeOf vm.layout old) by omega]
      exact midPays
  · rw [if_neg grows]
    by_cases shrinks : chargeOf vm.layout old > newBytes
    · have small := Frame.charged_le topCharged (mem_of_getElem? held)
      have given := released_pays pays
        (show chargeOf vm.layout old - newBytes ≤ top.heapCharge + (below.map (·.heapCharge)).sum + extra by omega)
      rw [if_pos shrinks, exec_bind, exec_release]
      refine stored_paid paid frames held chargeable ⟨rfl, rfl, rfl⟩ frames ?_ (by omega)
      rw [show top.heapCharge - (chargeOf vm.layout old - newBytes) + (below.map (·.heapCharge)).sum + extra =
        top.heapCharge + (below.map (·.heapCharge)).sum + extra - (chargeOf vm.layout old - newBytes) by omega]
      exact given
    · rw [if_neg shrinks]
      exact stored_paid paid frames held chargeable itself frames pays (by omega)

end Vm

end Byteflow
