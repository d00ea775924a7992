import Byteflow.HeapCharge

namespace Byteflow

open List Exec

def dictCharge (value : Value) : Nat :=
  match dictOwnedBytes value with
  | .ok bytes => bytes
  | .error _ => 0

namespace Vm

structure DictCharged (vm : Vm) : Prop where
  each : ∀ row ∈ vm.dict, dictOwnedBytes row.2 = .ok (dictCharge row.2)
  total : vm.dictBytes = (vm.dict.map fun row => dictCharge row.2).sum
  keys : (vm.dict.map Prod.fst).Nodup

structure Accounted (base : Nat × Nat) (vm : Vm) : Prop where
  paid : vm.Paid base vm.dictBytes
  dict : vm.DictCharged

structure Returned (base : Nat × Nat) (value : Value) (vm : Vm) : Prop where
  frames : vm.frames = []
  charge : ∃ keep, heapChargeOf vm.layout value = .ok keep ∧ vm.Pays base (keep + vm.dictBytes)
  dict : vm.DictCharged

end Vm

section Rows

variable (rows : List (Int64 × Value)) (key : Int64)

theorem dict_charge_remove (keys : (rows.map Prod.fst).Nodup) :
    (rows.map fun row => dictCharge row.2).sum =
      ((rows.filter (·.1 != key)).map fun row => dictCharge row.2).sum +
        dictCharge (((rows.find? (·.1 == key)).map Prod.snd).getD .unit) := by
  induction rows with
  | nil => rfl
  | cons row rest ih =>
    rw [map_cons, nodup_cons] at keys
    by_cases same : row.1 = key
    · have others : rest.filter (·.1 != key) = rest := by
        rw [filter_eq_self]
        intro other member
        have differs : other.1 ≠ key := fun eq => keys.1 (by rw [same, ← eq]; exact mem_map_of_mem member)
        simpa using differs
      rw [filter_cons_of_neg (by simp [same]), others, find?_cons_of_pos (by simp [same]), map_cons,
        sum_cons, Nat.add_comm]
      rfl
    · rw [filter_cons_of_pos (by simp [same]), find?_cons_of_neg (by simp [same]), map_cons, map_cons,
        sum_cons, sum_cons, ih keys.2]
      omega

end Rows

namespace Vm

variable {vm after : Vm} {base : Nat × Nat} {bytes extra : Nat} {oldBytes newBytes : Nat}

theorem dict_remove_charged (charged : vm.DictCharged) (key : Int64) :
    (∀ row ∈ (vm.dictRemove key).dict, dictOwnedBytes row.2 = .ok (dictCharge row.2)) ∧
      vm.dictBytes = ((vm.dictRemove key).dict.map fun row => dictCharge row.2).sum +
        dictCharge ((vm.dictLookup key).getD .unit) ∧
      ((vm.dictRemove key).dict.map Prod.fst).Nodup ∧ key ∉ (vm.dictRemove key).dict.map Prod.fst := by
  refine ⟨fun row member => charged.each row (mem_of_mem_filter member), ?_, ?_, ?_⟩
  · rw [charged.total]
    exact dict_charge_remove vm.dict key charged.keys
  · exact charged.keys.sublist (List.Sublist.map _ filter_sublist)
  · rintro present
    obtain ⟨row, member, isKey⟩ := mem_map.mp present
    have differs := (mem_filter.mp member).2
    simp [isKey] at differs

theorem dict_insert_charged (charged : vm.DictCharged) (key : Int64) (value : Value)
    (owned : dictOwnedBytes value = .ok (dictCharge value)) (kept : (after.dictRemove key).dict = (vm.dictRemove key).dict)
    (moved : after.dictBytes + dictCharge ((vm.dictLookup key).getD .unit) = vm.dictBytes + dictCharge value) :
    (after.dictInsert key value).DictCharged := by
  obtain ⟨each, total, keys, absent⟩ := dict_remove_charged charged key
  have rows : (after.dictInsert key value).dict = (key, value) :: (vm.dictRemove key).dict := by
    rw [← kept]
    rfl
  refine ⟨fun row member => ?_, ?_, ?_⟩
  · rw [rows] at member
    rcases mem_cons.mp member with rfl | inside
    · exact owned
    · exact each row inside
  · rw [rows, map_cons, sum_cons]
    change after.dictBytes = dictCharge value + _
    omega
  · rw [rows, map_cons, nodup_cons]
    exact ⟨absent, keys⟩

theorem lookup_owned (charged : vm.DictCharged) (key : Int64) :
    dictOwnedBytes ((vm.dictLookup key).getD .unit) = .ok (dictCharge ((vm.dictLookup key).getD .unit)) := by
  rw [dictLookup]
  cases found : vm.dict.find? (·.1 == key) with
  | none => rfl
  | some row => exact charged.each row (mem_of_find?_eq_some found)

theorem lookup_le (charged : vm.DictCharged) (key : Int64) :
    dictCharge ((vm.dictLookup key).getD .unit) ≤ vm.dictBytes := by
  obtain ⟨_, total, _⟩ := dict_remove_charged charged key
  omega

def withDict (vm : Vm) (dict : List (Int64 × Value)) : Vm := { vm with dict := dict }

def withDictBytes (vm : Vm) (dictBytes : Nat) : Vm := { vm with dictBytes := dictBytes }

theorem with_dict_self (vm : Vm) : vm.withDict vm.dict = vm := rfl

theorem exec_adjust_grow (grows : newBytes > oldBytes) :
    exec (adjustDictQuota oldBytes newBytes) vm = match exec (charge (newBytes - oldBytes)) vm with
      | (.error fault, mid) => (.error fault, mid)
      | (.ok (), mid) => match mid.layout.checkedAdd mid.dictBytes (newBytes - oldBytes) with
          | some next => (.ok (), mid.withDictBytes next)
          | none => (.error heapChargeDoesNotFit, mid.released (newBytes - oldBytes)) := by
  rw [adjustDictQuota, if_pos grows]
  dsimp only
  rw [exec_bind]
  cases exec (charge (newBytes - oldBytes)) vm with
  | mk outcome mid =>
    cases outcome with
    | error fault => rfl
    | ok done =>
      dsimp only
      rw [exec_get_bind]
      cases mid.layout.checkedAdd mid.dictBytes (newBytes - oldBytes) with
      | some next => rfl
      | none =>
        rw [exec_bind, exec_release]
        rfl

theorem exec_adjust_shrink (shrinks : oldBytes > newBytes) :
    exec (adjustDictQuota oldBytes newBytes) vm =
      (.ok (), (vm.released (oldBytes - newBytes)).withDictBytes (vm.dictBytes - (oldBytes - newBytes))) := by
  rw [adjustDictQuota, if_neg (by omega), if_pos shrinks]
  dsimp only
  rw [exec_bind, exec_release]
  rfl

theorem exec_adjust_same (same : oldBytes = newBytes) : exec (adjustDictQuota oldBytes newBytes) vm = (.ok (), vm) := by
  rw [adjustDictQuota, if_neg (by omega), if_neg (by omega)]
  rfl

-- The accounts and dict_bytes move together.
structure Adjusted (base : Nat × Nat) (oldBytes newBytes : Nat) (vm after : Vm) : Prop where
  paid : after.Paid base after.dictBytes
  dict : after.dict = vm.dict
  moved : after.dictBytes + oldBytes = vm.dictBytes + newBytes

theorem paid_moved (paid : vm.Paid base extra) (frames : after.frames = vm.frames) (layout : after.layout = vm.layout)
    (pays : after.Pays base (vm.frameBytes + bytes)) : after.Paid base bytes := by
  refine ⟨fun frame member => ?_, ?_, ?_⟩
  · rw [layout]
    exact paid.charged frame (frames ▸ member)
  · rw [frameBytes, frames]
    exact pays
  · rw [frames]
    exact paid.rooted

theorem adjust_undone (holds : newBytes < oldBytes → vm.Backs (oldBytes - newBytes) ∧ oldBytes ≤ vm.dictBytes ∧
      vm.dictBytes ≤ vm.layout.usizeMax) :
    Ends (fun _ after => (∃ quota memory bytes, after = (vm.withAccounts quota memory).withDictBytes bytes) ∧
        ∀ dict, exec (adjustDictQuota newBytes oldBytes) (after.withDict dict) = (.ok (), vm.withDict dict))
      (fun _ after => after = vm) (exec (adjustDictQuota oldBytes newBytes) vm) := by
  rcases lt_trichotomy oldBytes newBytes with grows | same | shrinks
  · rw [exec_adjust_grow grows]
    have charging : Ends _ _ (exec (charge (newBytes - oldBytes)) vm) := charge_undone (newBytes - oldBytes)
    revert charging
    rcases exec (charge (newBytes - oldBytes)) vm with ⟨fault | done, mid⟩
    · exact id
    rintro ⟨restored, quota, memory, rfl⟩
    dsimp only
    cases sum : (vm.withAccounts quota memory).layout.checkedAdd (vm.withAccounts quota memory).dictBytes
        (newBytes - oldBytes) with
    | none => exact restored
    | some next =>
      have total : next = vm.dictBytes + (newBytes - oldBytes) := checked_add_some sum
      refine ⟨⟨quota, memory, next, rfl⟩, fun dict => ?_⟩
      have bytes : next - (newBytes - oldBytes) = vm.dictBytes := by omega
      rw [exec_adjust_shrink grows]
      change (Except.ok (), (((vm.withAccounts quota memory).released (newBytes - oldBytes)).withDictBytes
        (next - (newBytes - oldBytes))).withDict dict) = _
      rw [restored, bytes]
      rfl
  · rw [exec_adjust_same same]
    exact ⟨⟨_, _, _, rfl⟩, fun dict => exec_adjust_same same.symm⟩
  · obtain ⟨backs, held, fits⟩ := holds shrinks
    rw [exec_adjust_shrink shrinks]
    refine ⟨⟨_, _, _, rfl⟩, fun dict => ?_⟩
    have back : vm.dictBytes - (oldBytes - newBytes) + (oldBytes - newBytes) = vm.dictBytes := by omega
    have again : exec (charge (oldBytes - newBytes)) (((vm.withDict dict).withDictBytes
        (vm.dictBytes - (oldBytes - newBytes))).released (oldBytes - newBytes)) = (.ok (), _) := released_charge backs
    have state : ((vm.released (oldBytes - newBytes)).withDictBytes (vm.dictBytes - (oldBytes - newBytes))).withDict dict =
        ((vm.withDict dict).withDictBytes (vm.dictBytes - (oldBytes - newBytes))).released (oldBytes - newBytes) := rfl
    have sum : vm.layout.checkedAdd (vm.dictBytes - (oldBytes - newBytes)) (oldBytes - newBytes) = some vm.dictBytes := by
      rw [Layout.checkedAdd, back, if_pos fits]
    rw [exec_adjust_grow shrinks, state, again]
    dsimp only [withDictBytes, withDict]
    rw [sum]

-- dict_bytes is exact, and what accounts are attached hold it.
structure DictBacked (vm : Vm) : Prop where
  charged : vm.DictCharged
  backs : 0 < vm.dictBytes → vm.Backs vm.dictBytes
  fits : vm.dictBytes ≤ vm.layout.usizeMax

theorem paid_backs (paid : vm.Paid base vm.dictBytes) (some_ : 0 < vm.dictBytes) :
    vm.Backs vm.dictBytes ∧ vm.dictBytes ≤ vm.layout.usizeMax := by
  have backs := backs_less (pays_backs paid.pays (by omega)) (Nat.le_add_left vm.dictBytes vm.frameBytes)
  obtain ⟨quota, attached, _⟩ := paid.pays.quota
  have inQuota := (backs quota attached).1
  exact ⟨backs, by omega⟩

theorem accounted_backed (accounted : vm.Accounted base) : vm.DictBacked := by
  refine ⟨accounted.dict, fun some_ => (paid_backs accounted.paid some_).1, ?_⟩
  rcases Nat.eq_zero_or_pos vm.dictBytes with none | some_
  · omega
  · exact (paid_backs accounted.paid some_).2

theorem adjust_pays (paid : vm.Paid base vm.dictBytes) (held : oldBytes ≤ vm.dictBytes) :
    Ends (fun _ after => after.Pays base (vm.frameBytes + after.dictBytes) ∧
        after.dictBytes + oldBytes = vm.dictBytes + newBytes)
      (fun _ _ => True) (exec (adjustDictQuota oldBytes newBytes) vm) := by
  rcases lt_trichotomy oldBytes newBytes with grows | same | shrinks
  · rw [exec_adjust_grow grows]
    have charging := charge_ends (newBytes - oldBytes) paid.pays
    revert charging
    rcases exec (charge (newBytes - oldBytes)) vm with ⟨fault | done, mid⟩
    · exact fun _ => trivial
    rintro ⟨pays, _, quota, memory, rfl⟩
    dsimp only
    cases sum : (vm.withAccounts quota memory).layout.checkedAdd (vm.withAccounts quota memory).dictBytes
        (newBytes - oldBytes) with
    | none => trivial
    | some next =>
      have total : next = vm.dictBytes + (newBytes - oldBytes) := checked_add_some sum
      change Pays base (vm.frameBytes + next) _ ∧ next + oldBytes = _
      rw [total, ← Nat.add_assoc]
      exact ⟨⟨pays.quota, pays.memory⟩, by omega⟩
  · rw [exec_adjust_same same]
    exact ⟨paid.pays, by omega⟩
  · rw [exec_adjust_shrink shrinks]
    have pays := released_pays paid.pays (show oldBytes - newBytes ≤ vm.frameBytes + vm.dictBytes by omega)
    change Pays base (vm.frameBytes + (vm.dictBytes - (oldBytes - newBytes))) _ ∧
      vm.dictBytes - (oldBytes - newBytes) + oldBytes = _
    rw [← Nat.add_sub_assoc (by omega)]
    exact ⟨⟨pays.quota, pays.memory⟩, by omega⟩

theorem adjust_ends (newBytes : Nat) (paid : vm.Paid base vm.dictBytes) (held : oldBytes ≤ vm.dictBytes) :
    Ends (fun _ after => Adjusted base oldBytes newBytes vm after) (fun _ after => after = vm)
      (exec (adjustDictQuota oldBytes newBytes) vm) := by
  have undone : Ends _ _ (exec (adjustDictQuota oldBytes newBytes) vm) := adjust_undone fun shrinks => by
    obtain ⟨backs, fits⟩ := paid_backs paid (by omega)
    exact ⟨backs_less backs (by omega), held, fits⟩
  refine ends_mono (ends_and undone (adjust_pays paid held)) ?_ fun _ _ both => both.1
  rintro _ _ ⟨⟨⟨quota, memory, bytes, rfl⟩, _⟩, pays, moved⟩
  exact ⟨paid_moved paid rfl rfl pays, rfl, moved⟩

abbrev Balances {α : Type} (base : Nat × Nat) (m : VmM α) : Prop :=
  Triple (Accounted base) m (fun _ => Accounted base) (fun _ => Accounted base)

theorem same_dict_charged (charged : vm.DictCharged) (same : SameDict vm after) : after.DictCharged := by
  refine ⟨?_, ?_, ?_⟩
  · rw [same.dict]
    exact charged.each
  · rw [same.dict, same.dictBytes]
    exact charged.total
  · rw [same.dict]
    exact charged.keys

theorem accounted_same_dict (charged : vm.DictCharged) (same : SameDict vm after) (paid : after.Paid base vm.dictBytes) :
    after.Accounted base := ⟨by rw [same.dictBytes]; exact paid, same_dict_charged charged same⟩

theorem accounted_untouched (accounted : vm.Accounted base) (frames : after.frames = vm.frames) (same : SameDict vm after)
    (quota : after.quota = vm.quota) (memory : after.memory = vm.memory) : after.Accounted base := by
  refine accounted_same_dict accounted.dict same (paid_moved accounted.paid frames same.layout ⟨?_, ?_⟩)
  · rw [quota, same.layout]
    exact accounted.paid.pays.quota
  · rw [memory, same.layout]
    exact accounted.paid.pays.memory

theorem set_reg_accounted (reg : UInt8) (value : Value) (accounted : vm.Accounted base) :
    Ends (fun _ after => after.Accounted base) (fun _ after => after = vm) (exec (setReg reg value) vm) := by
  have stored := set_reg_ends reg value accounted.paid
  revert stored
  rcases exec (setReg reg value) vm with ⟨fault | done, after⟩
  · exact id
  · exact fun ⟨paid, same⟩ => accounted_same_dict accounted.dict same paid

theorem set_reg_balances (base : Nat × Nat) (reg : UInt8) (value : Value) : Balances base (setReg reg value) := by
  intro vm accounted
  have stored := set_reg_accounted reg value accounted
  revert stored
  rcases exec (setReg reg value) vm with ⟨fault | done, after⟩
  · rintro rfl
    exact accounted
  · exact id

theorem owned_charge {value : Value} (owned : dictOwnedBytes value = .ok bytes) : bytes = dictCharge value := by
  rw [dictCharge, owned]

theorem backed_holds (backed : vm.DictBacked) {key : Int64} {old : Value} (found : (vm.dictLookup key).getD .unit = old)
    (owned : dictOwnedBytes old = .ok oldBytes) (shrinks : newBytes < oldBytes) :
    vm.Backs (oldBytes - newBytes) ∧ oldBytes ≤ vm.dictBytes ∧ vm.dictBytes ≤ vm.layout.usizeMax := by
  have within := lookup_le backed.charged key
  rw [found, ← owned_charge owned] at within
  exact ⟨backs_less (backed.backs (by omega)) (by omega), within, backed.fits⟩

-- The register is written between the reservation and the insertion, so a
-- refused store only has the reservation to undo.
theorem dict_put_ends (backed : vm.DictBacked) (instr : Instruction) (stores : Vm → Prop)
    (done : ∀ key value oldBytes newBytes mid after, dictOwnedBytes value = .ok newBytes →
      dictOwnedBytes ((vm.dictLookup key).getD .unit) = .ok oldBytes →
      exec (adjustDictQuota oldBytes newBytes) vm = (.ok (), mid) →
      exec (setReg instr.a ((vm.dictLookup key).getD .unit)) mid = (.ok (), after) → stores (after.dictInsert key value)) :
    Ends (fun _ => stores) (fun _ after => after = vm) (exec (dictPut instr) vm) := by
  refine ends_reading_bind (fun key _ => ?_) fun _ _ => rfl
  refine ends_reading_bind (fun value _ => ?_) fun _ _ => rfl
  refine ends_reading_bind (fun newBytes new => ?_) fun _ _ => rfl
  rw [exec_bind, exec_get]
  refine ends_reading_bind (fun oldBytes old => ?_) fun _ _ => rfl
  refine ends_bind (ends_and (ends_self _) (adjust_undone (backed_holds backed rfl old))) (fun _ mid adjusted => ?_)
    fun _ _ both => both.2
  obtain ⟨adjusts, ⟨quota, memory, bytes, rfl⟩, undo⟩ := adjusted
  refine ends_bind (ends_on_error (ends_and (ends_self _) (set_reg_fails instr.a _)) fun fault after refused => ?_)
    (fun _ after stored => done key value oldBytes newBytes _ after new old adjusts stored.1) fun _ _ same => same
  rw [refused.2, exec_bind, ← with_dict_self (withDictBytes _ bytes), undo]
  exact with_dict_self vm

theorem put_back_lookup {key : Int64} {old : Value} (found : vm.dictLookup key = some old) (other : Int64) :
    ((vm.dictRemove key).dictInsert key old).dictLookup other = vm.dictLookup other := by
  by_cases same : other = key
  · rw [same, found]
    simp [dictLookup, dictInsert]
  · have kept : (vm.dict.filter (·.1 != key)).find? (·.1 == other) = vm.dict.find? (·.1 == other) := by
      rw [find?_filter]
      congr 1
      funext row
      by_cases here : row.1 = other <;> simp [here, same]
    simp [dictLookup, dictInsert, dictRemove, filter_filter, Ne.symm same, kept]

-- A refused erasure leaves the row it had taken out at the front.
def PutBack (vm after : Vm) : Prop :=
  after = vm ∨ ∃ key old, vm.dictLookup key = some old ∧ after = (vm.dictRemove key).dictInsert key old

theorem dict_erase_ends (backed : vm.DictBacked) (instr : Instruction) (stores : Vm → Prop)
    (absent : ∀ after, exec (setReg instr.a .unit) vm = (.ok (), after) → stores after)
    (done : ∀ key old oldBytes mid after, vm.dictLookup key = some old → dictOwnedBytes old = .ok oldBytes →
      exec (adjustDictQuota oldBytes 0) (vm.dictRemove key) = (.ok (), mid) →
      exec (setReg instr.a old) mid = (.ok (), after) → stores after) :
    Ends (fun _ => stores) (fun _ => vm.PutBack) (exec (dictErase instr) vm) := by
  refine ends_reading_bind (fun key _ => ?_) fun _ _ => Or.inl rfl
  refine ends_reading_bind (fun _ _ => ?_) fun _ _ => Or.inl rfl
  rw [exec_get_bind]
  cases found : vm.dictLookup key with
  | none =>
    exact ends_mono (ends_and (ends_self _) (set_reg_fails instr.a .unit)) (fun _ after stored => absent after stored.1)
      fun _ _ refused => Or.inl refused.2
  | some old =>
    have unwrapped : (vm.dictLookup key).getD .unit = old := by rw [found]; rfl
    have restored : vm.PutBack ((vm.dictRemove key).dictInsert key old) := Or.inr ⟨key, old, found, rfl⟩
    dsimp only
    rw [exec_bind, exec_modify]
    refine ends_reading_bind (fun oldBytes owned => ?_) fun _ failed => ?_
    · have holds : 0 < oldBytes → vm.Backs (oldBytes - 0) ∧ oldBytes ≤ vm.dictBytes ∧
          vm.dictBytes ≤ vm.layout.usizeMax := backed_holds backed unwrapped owned
      refine ends_bind (F := fun _ => vm.PutBack) (ends_on_error (ends_and (ends_self _) (adjust_undone holds))
        fun _ after refused => refused.2 ▸ restored) (fun _ mid adjusted => ?_) fun _ _ done => done
      obtain ⟨adjusts, ⟨quota, memory, bytes, rfl⟩, undo⟩ := adjusted
      refine ends_on_error (ends_mono (ends_and (ends_self _) (set_reg_fails instr.a old))
        (fun _ after stored => done key old oldBytes _ after found owned adjusts stored.1) fun _ _ refused => refused.2)
        fun fault after same => ?_
      have undone : exec (adjustDictQuota 0 oldBytes) (dictInsert key old after) = (.ok (), (vm.dictRemove key).dictInsert key old) :=
        same ▸ undo ((vm.dictRemove key).dictInsert key old).dict
      rw [exec_bind, exec_modify]
      dsimp only
      rw [exec_bind, undone]
      exact restored
    · have row := lookup_owned backed.charged key
      rw [unwrapped, failed] at row
      cases row

theorem dict_update_atomic (vm : Vm) (backed : vm.DictBacked) (instr : Instruction)
    (isDict : instr.op = .dictPut ∨ instr.op = .dictErase) (fault : Fault)
    (faulted : (exec (execute instr) vm).1 = .error fault) :
    let after := (exec (execute instr) vm).2
    (∀ key, after.dictLookup key = vm.dictLookup key) ∧ after.dictBytes = vm.dictBytes ∧ after.frames = vm.frames ∧
      after.quota = vm.quota ∧ after.memory = vm.memory := by
  have ends : Ends (fun _ _ => True) (fun _ => vm.PutBack) (exec (execute instr) vm) := by
    rcases isDict with put | erase
    · rw [execute, put]
      exact ends_bind (dict_put_ends backed instr (fun _ => True) fun _ _ _ _ _ _ _ _ _ _ => trivial) (fun _ _ _ => trivial)
        fun _ _ same => Or.inl same
    · rw [execute, erase]
      exact ends_bind (dict_erase_ends backed instr (fun _ => True) (fun _ _ => trivial) fun _ _ _ _ _ _ _ _ _ => trivial)
        (fun _ _ _ => trivial) fun _ _ back => back
  revert ends faulted
  rcases exec (execute instr) vm with ⟨stopped | result, after⟩
  · rintro _ (rfl | ⟨key, old, found, rfl⟩)
    · exact ⟨fun _ => rfl, rfl, rfl, rfl, rfl⟩
    · exact ⟨put_back_lookup found, rfl, rfl, rfl, rfl⟩
  · intro faulted
    cases faulted

def storingVm : Vm :=
  ⟨.word, ⟨"", [], [], []⟩, ⟨[]⟩, NativeGate.deny 0, [⟨0, 0, [.int 1, .bytes [7]], none, 1⟩], 0, 1,
    some ⟨8, 4⟩, some ⟨8, 4⟩, [(1, .bytes [1, 2, 3])], 3⟩

-- The shorter value releases two bytes before the destination turns out not to exist.
theorem refused_put_restored : (exec (execute ⟨.dictPut, 9, 0, 1, 0⟩) storingVm).2.dictBytes = 3 :=
  (dict_update_atomic storingVm ⟨⟨by decide, rfl, by decide⟩, fun _ quota attached => by
    cases attached
    exact ⟨by decide, fun memory found => by cases found; decide⟩, by decide⟩ ⟨.dictPut, 9, 0, 1, 0⟩ (Or.inl rfl)
    (.registerOutOfRange 9 2) rfl).2.1

theorem dict_put_balances (base : Nat × Nat) (instr : Instruction) : Balances base (dictPut instr) := by
  intro vm accounted
  have charged := accounted.dict
  refine ends_mono (dict_put_ends (accounted_backed accounted) instr (Accounted base) fun key value oldBytes newBytes mid after
    owned previous adjusts stored => ?_) (fun _ _ done => done) fun _ _ same => same ▸ accounted
  have new := owned_charge owned
  have old := owned_charge previous
  have adjusted := adjust_ends newBytes accounted.paid (old ▸ lookup_le charged key)
  rw [adjusts] at adjusted
  have moved := set_reg_ends instr.a ((vm.dictLookup key).getD .unit) adjusted.paid
  rw [stored] at moved
  obtain ⟨paid, same⟩ := moved
  have rows : (after.dictRemove key).dict = (vm.dictRemove key).dict := by
    rw [dictRemove, dictRemove, same.dict, adjusted.dict]
  refine ⟨?_, dict_insert_charged charged key value (new ▸ owned) rows ?_⟩
  · have kept : (after.dictInsert key value).dictBytes = mid.dictBytes := same.dictBytes
    rw [kept]
    exact paid_moved paid rfl rfl ⟨paid.pays.quota, paid.pays.memory⟩
  · rw [same.dictBytes, ← old, ← new]
    exact adjusted.moved

theorem put_back_accounted (accounted : vm.Accounted base) (back : vm.PutBack after) : after.Accounted base := by
  rcases back with rfl | ⟨key, old, found, rfl⟩
  · exact accounted
  have owned := lookup_owned accounted.dict key
  rw [found] at owned
  have again : ((vm.dictRemove key).dictRemove key).dict = (vm.dictRemove key).dict := filter_filter.trans (by simp [dictRemove])
  exact ⟨paid_moved accounted.paid rfl rfl ⟨accounted.paid.pays.quota, accounted.paid.pays.memory⟩,
    dict_insert_charged accounted.dict key old owned again (by rw [found]; rfl)⟩

theorem dict_erase_balances (base : Nat × Nat) (instr : Instruction) : Balances base (dictErase instr) := by
  intro vm accounted
  refine ends_mono (dict_erase_ends (accounted_backed accounted) instr (Accounted base) (fun after stored => ?_)
    fun key old oldBytes mid after found owned adjusts stored => ?_) (fun _ _ done => done)
    fun _ _ back => put_back_accounted accounted back
  · have balanced := set_reg_accounted instr.a .unit accounted
    rwa [stored] at balanced
  obtain ⟨each, total, keys, _⟩ := dict_remove_charged accounted.dict key
  rw [found, Option.getD_some, ← owned_charge owned] at total
  have removed : (vm.dictRemove key).Paid base (vm.dictRemove key).dictBytes :=
    paid_moved accounted.paid rfl rfl ⟨accounted.paid.pays.quota, accounted.paid.pays.memory⟩
  have adjusted := adjust_ends 0 removed (show oldBytes ≤ vm.dictBytes by omega)
  rw [adjusts] at adjusted
  have charged : mid.DictCharged := by
    refine ⟨?_, ?_, ?_⟩
    · rw [adjusted.dict]
      exact each
    · have moved : mid.dictBytes + oldBytes = vm.dictBytes + 0 := adjusted.moved
      rw [adjusted.dict]
      omega
    · rw [adjusted.dict]
      exact keys
  have balanced := set_reg_accounted instr.a old ⟨adjusted.paid, charged⟩
  rwa [stored] at balanced

theorem fresh_request_id_balances (base : Nat × Nat) : Balances base freshRequestId := by
  intro vm accounted
  have counter : ∀ next, Accounted base { vm with nextRequestId := next } := fun next =>
    accounted_untouched accounted rfl ⟨rfl, rfl, rfl⟩ rfl rfl
  rw [freshRequestId, exec_get_bind]
  by_cases last : (if vm.nextRequestId = 0 then 1 else vm.nextRequestId) ≥ (0x7FFFFFFFFFFFFFFF : UInt64)
  · rw [if_pos last]
    exact counter _
  · rw [if_neg last]
    exact counter _

theorem register_atom_balances (base : Nat × Nat) (γ : Type) (m : VmM γ) (isAtom : RegisterAtom γ m) : Balances base m := by
  cases isAtom with
  | setReg reg value => exact set_reg_balances base reg value
  | dictPut instr => exact dict_put_balances base instr
  | dictErase instr => exact dict_erase_balances base instr
  | freshRequestId => exact fresh_request_id_balances base

end Vm

end Byteflow
