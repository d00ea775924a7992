import Byteflow.MailboxRace

namespace Byteflow

open Transition

-- An entry of the timer wheel: the epoch it carries, and the park that armed it.
structure Deadline where
  park : Nat
  epoch : UInt64

-- One mailbox and the deadlines armed for it. parks counts the parks so far and
-- current is the number of the one that is on; no function of the source reads
-- the two.
structure WaitHistory where
  mailbox : Mailbox
  parks : Nat
  current : Option Nat
  armed : List Deadline

-- An armed deadline may expire at once, so the arming that follows a timed park
-- is part of it. takeParked is the kill, the orphaned Ask and the shutdown.
inductive WaitEvent where
  | park (flow : FlowBox) (filter : WaitFilter) (timed : Bool)
  | expire (index : Nat)
  | push (hop : Hop)
  | pushSystem (hop : Hop)
  | tryPopFilter (filter : WaitFilter)
  | takeParked
  | parkSender (flow : FlowBox) (message : Hop)
  | admitWaitingSender
  | takeWaitingSender (sender : FlowId)
  | close

namespace WaitHistory

variable (layout : Layout)

def initial (config : MailboxConfig) : WaitHistory := ⟨.withConfig config, 0, none, []⟩

def follow (state : WaitHistory) (mailbox : Mailbox) : WaitHistory :=
  { state with mailbox := mailbox, current := if mailbox.parked.isSome then state.current else none }

def next (state : WaitHistory) : WaitEvent → Option WaitHistory
  | .park flow filter timed =>
    match state.mailbox.parkFilter layout flow filter with
    | (mailbox, .error _) => some (state.follow mailbox)
    | (mailbox, .ok epoch) =>
      let park := state.parks + 1
      some ⟨mailbox, park, some park, if timed then ⟨park, epoch⟩ :: state.armed else state.armed⟩
  | .expire index =>
    match state.armed[index]? with
    | none => none
    | some deadline =>
      some { state.follow (state.mailbox.takeParkedAt deadline.epoch).1 with armed := state.armed.eraseIdx index }
  | .push hop => some (state.follow (state.mailbox.push layout hop).1)
  | .pushSystem hop => some (state.follow (state.mailbox.pushSystem layout hop).1)
  | .tryPopFilter filter => some (state.follow (state.mailbox.tryPopFilter layout filter).1)
  | .takeParked => some (state.follow state.mailbox.takeParked.1)
  | .parkSender flow message => some (state.follow (state.mailbox.parkSender layout flow message).1)
  | .admitWaitingSender => some (state.follow (state.mailbox.admitWaitingSender layout).1)
  | .takeWaitingSender sender => some (state.follow (state.mailbox.takeWaitingSender sender).1)
  | .close => some (state.follow state.mailbox.close.1)

-- The epoch of the mailbox is the number of the last park, and so is that of
-- each deadline for its own park.
structure Numbered (state : WaitHistory) : Prop where
  epoch : state.mailbox.waitEpoch = UInt64.ofNat state.parks
  live : ∀ park, state.current = some park → park = state.parks ∧ state.mailbox.parked.isSome = true
  idle : state.current = none → state.mailbox.parked = none
  armed : ∀ deadline ∈ state.armed, 1 ≤ deadline.park ∧ deadline.park ≤ state.parks ∧ deadline.epoch = UInt64.ofNat deadline.park

def EndsAtMost (before after : Mailbox) : Prop :=
  after.waitEpoch = before.waitEpoch ∧ (after.parked = before.parked ∨ after.parked = none)

section Calls

variable {layout : Layout} {mailbox : Mailbox}

theorem ends_same : EndsAtMost mailbox mailbox := ⟨rfl, Or.inl rfl⟩

theorem push_ends (layout : Layout) (mailbox : Mailbox) (hop : Hop) : EndsAtMost mailbox (mailbox.push layout hop).1 := by
  rcases Mailbox.push_cases layout mailbox hop with ⟨reason, same⟩ | ⟨_, _, _, same⟩ | ⟨_, same⟩
  · rw [same]
    exact ends_same
  · rw [same]
    exact ⟨rfl, Or.inr rfl⟩
  · obtain ⟨stats, frame⟩ := Mailbox.enqueue_locked_frame layout mailbox hop mailbox.config.overflow
    rw [same, frame]
    exact ⟨rfl, Or.inl rfl⟩

theorem push_system_ends (layout : Layout) (mailbox : Mailbox) (hop : Hop) :
    EndsAtMost mailbox (mailbox.pushSystem layout hop).1 := by
  rcases Mailbox.push_system_cases layout mailbox hop with same | ⟨_, _, _, same⟩ | ⟨_, same⟩
  · rw [same]
    exact ends_same
  · rw [same]
    exact ⟨rfl, Or.inr rfl⟩
  · rw [same]
    exact ⟨rfl, Or.inl rfl⟩

theorem try_pop_filter_ends (layout : Layout) (mailbox : Mailbox) (filter : WaitFilter) :
    EndsAtMost mailbox (mailbox.tryPopFilter layout filter).1 := by
  unfold Mailbox.tryPopFilter
  rcases mailbox.queue.take layout filter with ⟨queue, _ | hop⟩
  · exact ends_same
  · exact ⟨rfl, Or.inl rfl⟩

theorem park_sender_ends (layout : Layout) (mailbox : Mailbox) (flow : FlowBox) (message : Hop) :
    EndsAtMost mailbox (mailbox.parkSender layout flow message).1 := by
  rcases Mailbox.park_sender_cases layout mailbox flow message with ⟨_, _, same⟩ | ⟨_, same⟩ | ⟨_, same⟩ <;> rw [same] <;>
    exact ⟨rfl, Or.inl rfl⟩

theorem admit_waiting_sender_ends (layout : Layout) (mailbox : Mailbox) :
    EndsAtMost mailbox (mailbox.admitWaitingSender layout).1 := by
  rcases Mailbox.admit_waiting_sender_cases layout mailbox with
    ⟨_, same⟩ | ⟨_, _, _, ⟨_, same⟩ | ⟨_, same⟩ | ⟨_, _, _, same⟩⟩ <;> rw [same] <;> exact ⟨rfl, Or.inl rfl⟩

theorem take_waiting_sender_ends (mailbox : Mailbox) (sender : FlowId) :
    EndsAtMost mailbox (mailbox.takeWaitingSender sender).1 := by
  unfold Mailbox.takeWaitingSender
  split
  · exact ends_same
  · exact ⟨rfl, Or.inl rfl⟩

theorem take_parked_at_cases (mailbox : Mailbox) (epoch : UInt64) :
    (∃ flow, mailbox.waitEpoch = epoch ∧ mailbox.parked = some flow ∧
        mailbox.takeParkedAt epoch = ({ mailbox with parked := none, parkedFilter := .any }, some flow)) ∨
      (mailbox.waitEpoch ≠ epoch ∨ mailbox.parked = none) ∧ mailbox.takeParkedAt epoch = (mailbox, none) := by
  unfold Mailbox.takeParkedAt
  by_cases stale : mailbox.waitEpoch ≠ epoch
  · exact Or.inr ⟨Or.inl stale, if_pos stale⟩
  · rw [if_neg stale]
    cases parked : mailbox.parked with
    | none => exact Or.inr ⟨Or.inr rfl, rfl⟩
    | some flow => exact Or.inl ⟨flow, not_not.mp stale, rfl, rfl⟩

theorem take_parked_at_ends (mailbox : Mailbox) (epoch : UInt64) : EndsAtMost mailbox (mailbox.takeParkedAt epoch).1 := by
  rcases take_parked_at_cases mailbox epoch with ⟨_, _, _, same⟩ | ⟨_, same⟩
  · rw [same]
    exact ⟨rfl, Or.inr rfl⟩
  · rw [same]
    exact ends_same

end Calls

section Steps

variable {layout : Layout} {state after : WaitHistory}

theorem numbered_initial (config : MailboxConfig) : (initial config).Numbered := ⟨rfl, nofun, fun _ => rfl, nofun⟩

theorem numbered_follow (numbered : state.Numbered) {mailbox : Mailbox} (ends : EndsAtMost state.mailbox mailbox) :
    (state.follow mailbox).Numbered := by
  obtain ⟨epoch, parked⟩ := ends
  refine ⟨epoch.trans numbered.epoch, fun park isCurrent => ?_, fun idle => ?_, numbered.armed⟩
  · simp only [follow] at isCurrent
    split at isCurrent
    · rename_i still
      exact ⟨(numbered.live park isCurrent).1, still⟩
    · cases isCurrent
  · simp only [follow] at idle
    split at idle
    · rcases parked with same | gone
      · exact same.trans (numbered.idle idle)
      · exact gone
    · rename_i gone
      exact Option.not_isSome_iff_eq_none.mp gone

theorem numbered_park (numbered : state.Numbered) (flow : FlowBox) (filter : WaitFilter) (timed : Bool)
    (stepped : state.next layout (.park flow filter timed) = some after) : after.Numbered := by
  simp only [next, Mailbox.parkFilter] at stepped
  generalize state.mailbox.queue.take layout filter = taken at stepped
  rcases taken with ⟨queue, _ | hop⟩
  · cases stepped
    have epoch : state.mailbox.waitEpoch + 1 = UInt64.ofNat (state.parks + 1) := by
      rw [numbered.epoch, UInt64.ofNat_add]
      rfl
    have older : ∀ deadline ∈ state.armed, 1 ≤ deadline.park ∧ deadline.park ≤ state.parks + 1 ∧
        deadline.epoch = UInt64.ofNat deadline.park := fun deadline member =>
      ⟨(numbered.armed deadline member).1, Nat.le_succ_of_le (numbered.armed deadline member).2.1,
        (numbered.armed deadline member).2.2⟩
    refine ⟨epoch, ?_, nofun, ?_⟩
    · intro park isCurrent
      cases isCurrent
      exact ⟨rfl, rfl⟩
    · intro deadline member
      dsimp only at member
      split at member
      · rcases List.mem_cons.mp member with rfl | old
        · exact ⟨Nat.succ_pos _, Nat.le_refl _, epoch⟩
        · exact older deadline old
      · exact older deadline member
  · cases stepped
    exact numbered_follow numbered ⟨rfl, Or.inl rfl⟩

theorem numbered_step (numbered : state.Numbered) {event : WaitEvent} (stepped : state.next layout event = some after) :
    after.Numbered := by
  cases event with
  | park flow filter timed => exact numbered_park numbered flow filter timed stepped
  | expire index =>
    simp only [next] at stepped
    split at stepped
    · cases stepped
    · rename_i expired _
      cases stepped
      have kept := numbered_follow numbered (take_parked_at_ends state.mailbox expired.epoch)
      exact ⟨kept.epoch, kept.live, kept.idle, fun deadline member => kept.armed deadline (List.mem_of_mem_eraseIdx member)⟩
  | push hop =>
    cases stepped
    exact numbered_follow numbered (push_ends layout state.mailbox hop)
  | pushSystem hop =>
    cases stepped
    exact numbered_follow numbered (push_system_ends layout state.mailbox hop)
  | tryPopFilter filter =>
    cases stepped
    exact numbered_follow numbered (try_pop_filter_ends layout state.mailbox filter)
  | takeParked =>
    cases stepped
    exact numbered_follow numbered ⟨rfl, Or.inr rfl⟩
  | parkSender flow message =>
    cases stepped
    exact numbered_follow numbered (park_sender_ends layout state.mailbox flow message)
  | admitWaitingSender =>
    cases stepped
    exact numbered_follow numbered (admit_waiting_sender_ends layout state.mailbox)
  | takeWaitingSender sender =>
    cases stepped
    exact numbered_follow numbered (take_waiting_sender_ends state.mailbox sender)
  | close =>
    cases stepped
    exact numbered_follow numbered ⟨rfl, Or.inl rfl⟩

theorem own_epoch_iff (numbered : state.Numbered) (few : state.parks < 2 ^ 64) {deadline : Deadline}
    (armed : deadline ∈ state.armed) : state.mailbox.waitEpoch = deadline.epoch ↔ deadline.park = state.parks := by
  obtain ⟨_, older, epoch⟩ := numbered.armed deadline armed
  rw [numbered.epoch, epoch]
  constructor
  · intro same
    have equal := congrArg UInt64.toNat same
    rw [UInt64.toNat_ofNat', UInt64.toNat_ofNat', Nat.mod_eq_of_lt few, Nat.mod_eq_of_lt (Nat.lt_of_le_of_lt older few)] at equal
    exact equal.symm
  · intro same
    rw [same]

end Steps

theorem stale_deadlines_harmless (layout : Layout) (config : MailboxConfig) (state : WaitHistory)
    (reached : Reach (next layout) (fun _ _ => True) (initial config) state) (few : state.parks < 2 ^ 64)
    (deadline : Deadline) (armed : deadline ∈ state.armed) :
    (state.current = some deadline.park → ∃ flow, state.mailbox.parked = some flow ∧
        state.mailbox.takeParkedAt deadline.epoch = ({ state.mailbox with parked := none, parkedFilter := .any }, some flow)) ∧
      (state.current ≠ some deadline.park → state.mailbox.takeParkedAt deadline.epoch = (state.mailbox, none)) := by
  have numbered := @reach_invariant _ _ _ _ _ _ Numbered (numbered_initial config)
    (fun _ _ _ numbered _ stepped => numbered_step numbered stepped) reached
  have own := own_epoch_iff numbered few armed
  rcases take_parked_at_cases state.mailbox deadline.epoch with ⟨flow, epoch, parked, taken⟩ | ⟨stale, same⟩
  · refine ⟨fun _ => ⟨flow, parked, taken⟩, fun foreign => absurd ?_ foreign⟩
    cases current : state.current with
    | none =>
      rw [numbered.idle current] at parked
      cases parked
    | some park => rw [(numbered.live park current).1, own.mp epoch]
  · refine ⟨fun isCurrent => ?_, fun _ => same⟩
    obtain ⟨last, isParked⟩ := numbered.live _ isCurrent
    rcases stale with other | unparked
    · exact absurd (own.mpr last) other
    · rw [unparked] at isParked
      cases isParked

def lateEvents : List WaitEvent := [.park { id := 1 } .any true, .push ⟨.unit, 0⟩, .park { id := 1 } (.tag 7) false]

def lateState : WaitHistory :=
  (play (next .word) (initial .DEFAULT) lateEvents).getD (initial .DEFAULT)

theorem late_deadline_spares_park :
    lateState.current = some 2 ∧ lateState.armed = [⟨1, 1⟩] ∧ lateState.mailbox.takeParkedAt 1 = (lateState.mailbox, none) := by
  have played : play (next .word) (initial .DEFAULT) lateEvents = some lateState := rfl
  have reached := reach_of_play lateEvents _ (all_meet_of_forall (fun _ _ => trivial) lateEvents _) played
  exact ⟨rfl, rfl, (stale_deadlines_harmless .word .DEFAULT lateState reached (by decide) ⟨1, 1⟩
    List.mem_cons_self).2 (by decide)⟩

end WaitHistory

end Byteflow
