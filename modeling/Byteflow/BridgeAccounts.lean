import Byteflow.Transition

namespace Byteflow

open List Transition

structure BridgeAccounts where
  hops : Nat
  bytes : Nat
  maxHops : Nat
  maxBytes : Nat

-- Where a call of try_charge, and then the charge it was granted, has got to.
-- The four last stages are the drop of the charge: release.
inductive ChargeStage where
  | loadHops (cost : Nat)
  | loadBytes (cost hops : Nat)
  | casHops (cost hops used : Nat)
  | casBytes (cost used : Nat)
  | undo (cost : Nat)
  | refused
  | granted (cost : Nat)
  | dropHop (cost : Nat)
  | readBytes (cost : Nat)
  | casRelease (cost cur : Nat)
  | released

namespace BridgeAccounts

def withConfig (maxPendingHops maxPendingBytes : UInt64) : BridgeAccounts :=
  ⟨0, 0, max maxPendingHops.toNat 1, max maxPendingBytes.toNat 1⟩

def dropHop (accounts : BridgeAccounts) : BridgeAccounts := { accounts with hops := (accounts.hops + (2 ^ 64 - 1)) % 2 ^ 64 }

-- One atomic step. A weak compare-exchange may fail although the value is as expected.
def step (accounts : BridgeAccounts) (spurious : Bool) : ChargeStage → BridgeAccounts × ChargeStage
  | .loadHops cost =>
    if accounts.hops ≥ accounts.maxHops then (accounts, .refused) else (accounts, .loadBytes cost accounts.hops)
  | .loadBytes cost hops =>
    if accounts.bytes + cost ≥ 2 ^ 64 ∨ accounts.bytes + cost > accounts.maxBytes then (accounts, .refused)
    else (accounts, .casHops cost hops accounts.bytes)
  | .casHops cost hops used =>
    if spurious ∨ accounts.hops ≠ hops then (accounts, .loadHops cost)
    else ({ accounts with hops := hops + 1 }, .casBytes cost used)
  | .casBytes cost used =>
    if spurious ∨ accounts.bytes ≠ used then (accounts, .undo cost)
    else ({ accounts with bytes := used + cost }, .granted cost)
  | .undo cost => (accounts.dropHop, .loadHops cost)
  | .refused => (accounts, .refused)
  | .granted cost => (accounts, .dropHop cost)
  | .dropHop cost => (accounts.dropHop, .readBytes cost)
  | .readBytes cost => (accounts, .casRelease cost accounts.bytes)
  | .casRelease cost cur =>
    if spurious ∨ accounts.bytes ≠ cur then (accounts, .readBytes cost)
    else ({ accounts with bytes := cur - cost }, .released)
  | .released => (accounts, .released)

end BridgeAccounts

namespace ChargeStage

def held : ChargeStage → Nat
  | .granted _ | .dropHop _ => 1
  | _ => 0

-- The hops counted for the stage: those held, and those of a call that may
-- still have to undo.
def hops : ChargeStage → Nat
  | .casBytes _ _ | .undo _ | .granted _ | .dropHop _ => 1
  | _ => 0

def owed : ChargeStage → Nat
  | .granted cost | .dropHop cost | .readBytes cost | .casRelease cost _ => cost
  | _ => 0

def isOver : ChargeStage → Bool
  | .refused | .released => true
  | _ => false

def Fits (accounts : BridgeAccounts) : ChargeStage → Prop
  | .loadBytes _ hops => hops < accounts.maxHops
  | .casHops cost hops used => hops < accounts.maxHops ∧ used + cost ≤ accounts.maxBytes
  | .casBytes cost used => used + cost ≤ accounts.maxBytes
  | _ => True

end ChargeStage

inductive BridgeEvent where
  | call (cost : Nat)
  | step (index : Nat) (spurious : Bool)

structure Bridge where
  accounts : BridgeAccounts
  calls : List ChargeStage

namespace Bridge

def next (bridge : Bridge) : BridgeEvent → Option Bridge
  | .call cost => some { bridge with calls := bridge.calls ++ [.loadHops cost] }
  | .step index spurious =>
    match bridge.calls[index]? with
    | none => none
    | some stage =>
      let (accounts, stage) := bridge.accounts.step spurious stage
      some ⟨accounts, bridge.calls.set index stage⟩

def heldCharges (bridge : Bridge) : Nat := (bridge.calls.map ChargeStage.held).sum

def owedBytes (bridge : Bridge) : Nat := (bridge.calls.map ChargeStage.owed).sum

structure Exact (maxHops maxBytes : Nat) (bridge : Bridge) : Prop where
  maxHops : bridge.accounts.maxHops = maxHops
  maxBytes : bridge.accounts.maxBytes = maxBytes
  hops : bridge.accounts.hops = (bridge.calls.map ChargeStage.hops).sum
  bytes : bridge.accounts.bytes = bridge.owedBytes
  fewHops : bridge.accounts.hops ≤ bridge.accounts.maxHops
  fewBytes : bridge.accounts.bytes ≤ bridge.accounts.maxBytes
  width : bridge.accounts.maxHops < 2 ^ 64
  fits : ∀ stage ∈ bridge.calls, stage.Fits bridge.accounts

-- What one step does to the counters and to the share of its call in them.
structure Moves (accounts : BridgeAccounts) (stage : ChargeStage) (after : BridgeAccounts) (later : ChargeStage) : Prop where
  hops : after.hops + stage.hops = accounts.hops + later.hops
  bytes : after.bytes + stage.owed = accounts.bytes + later.owed
  fewHops : after.hops ≤ accounts.maxHops
  fewBytes : after.bytes ≤ accounts.maxBytes
  maxHops : after.maxHops = accounts.maxHops
  maxBytes : after.maxBytes = accounts.maxBytes
  fits : later.Fits accounts

theorem step_moves (accounts : BridgeAccounts) (spurious : Bool) {stage : ChargeStage} (fits : stage.Fits accounts)
    (fewHops : accounts.hops ≤ accounts.maxHops) (fewBytes : accounts.bytes ≤ accounts.maxBytes)
    (width : accounts.maxHops < 2 ^ 64) (counted : stage.hops ≤ accounts.hops) (owed : stage.owed ≤ accounts.bytes) :
    Moves accounts stage (accounts.step spurious stage).1 (accounts.step spurious stage).2 := by
  have stays : ∀ later : ChargeStage, stage.hops = later.hops → stage.owed = later.owed → later.Fits accounts →
      Moves accounts stage accounts later := by
    intro later hops bytes laterFits
    exact ⟨by rw [hops], by rw [bytes], fewHops, fewBytes, rfl, rfl, laterFits⟩
  have gives : ∀ later : ChargeStage, stage.hops = 1 → later.hops = 0 → stage.owed = later.owed → later.Fits accounts →
      Moves accounts stage accounts.dropHop later := by
    intro later one none bytes laterFits
    rw [one] at counted
    have down : (accounts.hops + (2 ^ 64 - 1)) % 2 ^ 64 = accounts.hops - 1 := by omega
    rw [BridgeAccounts.dropHop, down]
    constructor
    · dsimp only
      omega
    · rw [bytes]
    · exact (Nat.sub_le _ _).trans fewHops
    · exact fewBytes
    · rfl
    · rfl
    · exact laterFits
  cases stage with
  | loadHops cost =>
    rw [BridgeAccounts.step]
    split
    · exact stays _ rfl rfl trivial
    · rename_i room
      exact stays _ rfl rfl (Nat.lt_of_not_le room)
  | loadBytes cost hops =>
    rw [BridgeAccounts.step]
    split
    · exact stays _ rfl rfl trivial
    · rename_i room
      exact stays _ rfl rfl ⟨fits, by omega⟩
  | casHops cost hops used =>
    rw [BridgeAccounts.step]
    split
    · exact stays _ rfl rfl trivial
    · rename_i same
      simp only [not_or, not_not] at same
      exact ⟨by rw [same.2]; rfl, rfl, fits.1, fewBytes, rfl, rfl, fits.2⟩
  | casBytes cost used =>
    rw [BridgeAccounts.step]
    split
    · exact stays _ rfl rfl trivial
    · rename_i same
      simp only [not_or, not_not] at same
      exact ⟨rfl, by rw [same.2]; rfl, fewHops, fits, rfl, rfl, trivial⟩
  | undo | dropHop => exact gives _ rfl rfl rfl trivial
  | casRelease cost cur =>
    rw [BridgeAccounts.step]
    split
    · exact stays _ rfl rfl trivial
    · rename_i same
      simp only [not_or, not_not] at same
      have enough : cost ≤ cur := same.2 ▸ owed
      refine ⟨rfl, ?_, fewHops, ?_, rfl, rfl, trivial⟩
      · change cur - cost + cost = accounts.bytes + 0
        omega
      · change cur - cost ≤ accounts.maxBytes
        omega
  | refused | granted _ | readBytes _ | released => exact stays _ rfl rfl trivial

theorem fits_limits {accounts after : BridgeAccounts} (maxHops : after.maxHops = accounts.maxHops)
    (maxBytes : after.maxBytes = accounts.maxBytes) {stage : ChargeStage} (fits : stage.Fits accounts) : stage.Fits after := by
  cases stage <;> simp only [ChargeStage.Fits, maxHops, maxBytes] at fits ⊢ <;> exact fits

theorem exact_next {maxHops maxBytes : Nat} {bridge after : Bridge} (exact_ : Exact maxHops maxBytes bridge)
    {event : BridgeEvent} (taken : bridge.next event = some after) : Exact maxHops maxBytes after := by
  obtain ⟨rfl, rfl, hops, bytes, fewHops, fewBytes, width, fits⟩ := exact_
  cases event with
  | call cost =>
    cases taken
    constructor
    · rfl
    · rfl
    · simpa [ChargeStage.hops] using hops
    · simpa [owedBytes, ChargeStage.owed] using bytes
    · exact fewHops
    · exact fewBytes
    · exact width
    · intro stage member
      rcases mem_append.mp member with old | new
      · exact fits stage old
      · rw [mem_singleton.mp new]
        trivial
  | step index spurious =>
    simp only [next] at taken
    split at taken
    · cases taken
    rename_i stage held
    rw [Option.some.injEq] at taken
    have member := mem_of_getElem? held
    have moves := step_moves bridge.accounts spurious (fits stage member) fewHops fewBytes width
      (hops ▸ le_sum_map ChargeStage.hops _ _ member) (bytes ▸ le_sum_map ChargeStage.owed _ _ member)
    generalize bridge.accounts.step spurious stage = stepped at moves taken
    obtain ⟨accounts, later⟩ := stepped
    subst taken
    have hopSum := sum_map_set ChargeStage.hops _ _ _ later held
    have byteSum := sum_map_set ChargeStage.owed _ _ _ later held
    obtain ⟨hopMove, byteMove, hopRoom, byteRoom, maxHops, maxBytes, laterFits⟩ := moves
    simp only [owedBytes] at bytes
    dsimp only at hopMove byteMove hopRoom byteRoom maxHops maxBytes
    constructor
    · exact maxHops
    · exact maxBytes
    · dsimp only
      omega
    · simp only [owedBytes]
      omega
    · exact maxHops ▸ hopRoom
    · exact maxBytes ▸ byteRoom
    · exact maxHops ▸ width
    · intro other there
      apply fits_limits maxHops maxBytes
      obtain ⟨position, found⟩ := mem_iff_getElem?.mp there
      rcases mem_set_cases found with ⟨_, rfl⟩ | ⟨_, old⟩
      · exact laterFits
      · exact fits other (mem_of_getElem? old)

theorem held_le_hops (calls : List ChargeStage) : (calls.map ChargeStage.held).sum ≤ (calls.map ChargeStage.hops).sum := by
  apply sum_le_sum
  intro stage _
  cases stage <;> first | exact Nat.zero_le _ | exact Nat.le_refl _

theorem over_owes_nothing {calls : List ChargeStage} (ended : ∀ stage ∈ calls, stage.isOver = true) (share : ChargeStage → Nat)
    (none : ∀ stage : ChargeStage, stage.isOver = true → share stage = 0) : (calls.map share).sum = 0 := by
  apply sum_eq_zero
  intro part member
  obtain ⟨stage, listed, rfl⟩ := mem_map.mp member
  exact none stage (ended stage listed)

theorem bridge_accounts_exact (maxPendingHops maxPendingBytes : UInt64) (bridge : Bridge)
    (reached : Reach next (fun _ _ => True) ⟨.withConfig maxPendingHops maxPendingBytes, []⟩ bridge) :
    bridge.accounts.bytes = bridge.owedBytes ∧ bridge.accounts.bytes ≤ max maxPendingBytes.toNat 1 ∧
      bridge.heldCharges ≤ bridge.accounts.hops ∧ bridge.accounts.hops ≤ max maxPendingHops.toNat 1 ∧
      ((∀ stage ∈ bridge.calls, stage.isOver = true) → bridge.accounts.hops = 0 ∧ bridge.accounts.bytes = 0) := by
  have exact_ : Exact (max maxPendingHops.toNat 1) (max maxPendingBytes.toNat 1) bridge := by
    apply reach_invariant _ _ reached
    · have width := maxPendingHops.toNat_lt
      constructor
      · rfl
      · rfl
      · rfl
      · rfl
      · exact Nat.zero_le _
      · exact Nat.zero_le _
      · change max maxPendingHops.toNat 1 < 2 ^ 64
        omega
      · exact nofun
    · intro before event after held _ taken
      exact exact_next held taken
  obtain ⟨maxHops, maxBytes, hops, bytes, fewHops, fewBytes, _, _⟩ := exact_
  refine ⟨bytes, maxBytes ▸ fewBytes, hops ▸ held_le_hops bridge.calls, maxHops ▸ fewHops, fun ended => ⟨?_, ?_⟩⟩
  · rw [hops]
    apply over_owes_nothing ended
    intro stage ended
    cases stage <;> first | rfl | cases ended
  · rw [bytes]
    apply over_owes_nothing ended
    intro stage ended
    cases stage <;> first | rfl | cases ended

-- The first call loses both compare-exchanges to the second, undoes its hop
-- and tries again; its release is overtaken too.
theorem charge_comes_back : ∃ bridge, Reach next (fun _ _ => True) ⟨.withConfig 2 100, []⟩ bridge ∧
    bridge.calls = [.released, .released] ∧ bridge.accounts.hops = 0 ∧ bridge.accounts.bytes = 0 := by
  have reached : Reach next (fun _ _ => True) ⟨.withConfig 2 100, []⟩ ⟨⟨0, 0, 2, 100⟩, [.released, .released]⟩ :=
    reach_of_play ([.call 40, .call 30] ++ [0, 0, 1, 1, 1, 0, 0, 0, 1, 0, 0, 0, 0, 0, 0, 0, 0, 0, 0, 1, 1, 1, 1, 0, 0, 0].map (.step · false))
      _ (all_meet_of_forall (fun _ _ => trivial) _ _) rfl
  obtain ⟨_, _, _, _, ended⟩ := bridge_accounts_exact 2 100 _ reached
  exact ⟨_, reached, rfl, ended (by decide)⟩

end Bridge

end Byteflow
