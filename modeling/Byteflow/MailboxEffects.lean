import Byteflow.MailboxBounds

namespace Byteflow

open Mailbox MailboxQueue

-- Whether an event brings a hop that older ones may have to leave for.
inductive Intake where
  | plain
  | evicting (hop : Hop)
  | forced (hop : Hop)

structure Counters where
  enqueued : Nat
  dequeued : Nat
  droppedOldest : Nat

def Mailbox.counters (mailbox : Mailbox) : Counters :=
  ⟨mailbox.stats.enqueued, mailbox.stats.dequeued, mailbox.stats.droppedOldest⟩

-- Everything one event can do to the queue and the three counters, with the
-- hops the owner gets by it.
inductive QueueEffect (layout : Layout) (queue : MailboxQueue) (counters : Counters) :
    Intake → MailboxQueue → Counters → List Hop → Prop where
  | quiet : QueueEffect layout queue counters .plain queue counters []
  | handed (hop : Hop) : QueueEffect layout queue counters .plain queue
      { counters with enqueued := bump counters.enqueued, dequeued := bump counters.dequeued } [hop]
  | queued (hop : Hop) (free : queue.crowded layout (hop.value.memorySize layout) = false) :
      QueueEffect layout queue counters .plain (queue.pushed layout hop) { counters with enqueued := bump counters.enqueued } []
  | taken (index : Nat) (hop : Hop) (found : queue.hops[index]? = some hop) :
      QueueEffect layout queue counters .plain
        { queue with hops := queue.hops.eraseIdx index, bytes := queue.bytes - hop.value.memorySize layout }
        { counters with dequeued := bump counters.dequeued } [hop]
  | replaced (hop : Hop) (count : Nat) (evicts : queue.Evicts layout (hop.value.memorySize layout) count)
      (fits : (queue.without layout count).wouldExceedBytes layout (hop.value.memorySize layout) = false) :
      QueueEffect layout queue counters (.evicting hop) ((queue.without layout count).pushed layout hop)
        { counters with
          enqueued := bump counters.enqueued
          droppedOldest := if 0 < count then bump counters.droppedOldest else counters.droppedOldest } []
  | refused (hop : Hop) (count : Nat) (evicts : queue.Evicts layout (hop.value.memorySize layout) count)
      (exceeds : (queue.without layout count).wouldExceedBytes layout (hop.value.memorySize layout) = true) :
      QueueEffect layout queue counters (.evicting hop) (queue.without layout count) counters []
  | missed (hop : Hop) (deep : hop.value.withinNestingLimit = false) :
      QueueEffect layout queue counters (.forced hop) queue { counters with enqueued := bump counters.enqueued } []
  | forced (hop : Hop) (count : Nat) (shallow : hop.value.withinNestingLimit = true)
      (evicts : queue.Evicts layout (hop.value.memorySize layout) count) :
      QueueEffect layout queue counters (.forced hop) ((queue.without layout count).pushed layout hop)
        { counters with enqueued := bump counters.enqueued } []

namespace Mailbox

variable {layout : Layout} {mailbox : Mailbox}

def pushIntake (mailbox : Mailbox) (hop : Hop) : Intake :=
  if hop.value.withinNestingLimit && !mailbox.closed && !mailbox.awaits hop && mailbox.config.overflow = .dropOldest then
    .evicting hop
  else .plain

def systemIntake (mailbox : Mailbox) (hop : Hop) : Intake :=
  if mailbox.closed || mailbox.awaits hop then .plain else .forced hop

theorem enqueue_locked_effect (layout : Layout) (mailbox : Mailbox) (hop : Hop) (policy : OverflowPolicy)
    (shallow : policy = .dropOldest → hop.value.withinNestingLimit = true) :
    QueueEffect layout mailbox.queue mailbox.counters (if policy = .dropOldest then .evicting hop else .plain)
      (mailbox.enqueueLocked layout hop policy).1.queue (mailbox.enqueueLocked layout hop policy).1.counters [] := by
  unfold enqueueLocked
  have outcome := enqueue_case layout mailbox.queue hop policy
  generalize mailbox.queue.enqueue layout hop policy = result at outcome ⊢
  cases outcome with
  | nested _ deep =>
    have other : policy ≠ .dropOldest := by
      intro evicting
      rw [shallow evicting] at deep
      cases deep
    rw [if_neg other]
    exact .quiet
  | room _ _ free =>
    by_cases evicting : policy = .dropOldest
    · rw [if_pos evicting]
      have fits : (mailbox.queue.without layout 0).wouldExceedBytes layout (hop.value.memorySize layout) = false := by
        rw [without_zero]
        exact exceeds_false_iff.mpr (crowded_false_iff.mp free).2
      have effect := @QueueEffect.replaced layout mailbox.queue mailbox.counters hop 0 (evicts_nothing free) fits
      rw [without_zero] at effect
      exact effect
    · rw [if_neg evicting]
      exact .queued hop free
  | reject | dropNewest => exact .quiet
  | refuse count _ full evicts exceeds => exact .refused hop count evicts exceeds
  | replace count _ full evicts fits =>
    have effect := @QueueEffect.replaced layout mailbox.queue mailbox.counters hop count evicts fits
    by_cases some_ : 0 < count
    · rw [if_pos some_] at effect ⊢
      exact effect
    · rw [if_neg some_] at effect ⊢
      exact effect

theorem enqueue_locked_keeps_parked (layout : Layout) (mailbox : Mailbox) (hop : Hop) (policy : OverflowPolicy) (flow : FlowBox) :
    (mailbox.enqueueLocked layout hop policy).2 ≠ .ok (.handoff flow) := by
  unfold enqueueLocked
  rcases mailbox.queue.enqueue layout hop policy with ⟨queue, outcome⟩
  cases outcome with
  | error reason => nofun
  | ok effect => cases effect <;> nofun

theorem push_effect (layout : Layout) (mailbox : Mailbox) (hop : Hop) :
    (∃ flow, (mailbox.push layout hop).2 = .ok (.handoff flow) ∧ QueueEffect layout mailbox.queue mailbox.counters
        (mailbox.pushIntake hop) (mailbox.push layout hop).1.queue (mailbox.push layout hop).1.counters [hop]) ∨
      (∀ flow, (mailbox.push layout hop).2 ≠ .ok (.handoff flow)) ∧ QueueEffect layout mailbox.queue mailbox.counters
        (mailbox.pushIntake hop) (mailbox.push layout hop).1.queue (mailbox.push layout hop).1.counters [] := by
  by_cases deep : hop.value.withinNestingLimit = false
  · rw [push, if_pos deep, pushIntake, deep]
    exact Or.inr ⟨fun _ same => (by cases same), .quiet⟩
  have shallow := (Bool.not_eq_false _).mp deep
  by_cases isClosed : mailbox.closed = true
  · rw [push, if_neg deep, if_pos isClosed, pushIntake, isClosed, Bool.not_true, Bool.and_false]
    exact Or.inr ⟨fun _ same => (by cases same), .quiet⟩
  have isOpen := Bool.eq_false_iff.mpr isClosed
  rcases push_open layout deep isOpen with ⟨flow, _, awaited, handed⟩ | ⟨unawaited, enqueued⟩
  · rw [handed, pushIntake, awaited, Bool.not_true, Bool.and_false]
    exact Or.inl ⟨flow, rfl, .handed hop⟩
  · have effect := enqueue_locked_effect layout mailbox hop mailbox.config.overflow fun _ => shallow
    rw [enqueued, pushIntake, shallow, isOpen, unawaited]
    simp only [Bool.not_false, Bool.and_true, Bool.true_and, decide_eq_true_eq]
    exact Or.inr ⟨enqueue_locked_keeps_parked layout mailbox hop mailbox.config.overflow, effect⟩

theorem force_push_effect (sound : mailbox.queue.Sound layout) (hop : Hop) :
    QueueEffect layout mailbox.queue mailbox.counters (.forced hop) (mailbox.queue.forcePush layout hop)
      { mailbox.counters with enqueued := bump mailbox.counters.enqueued } [] := by
  rcases force_push_case sound hop with ⟨deep, kept⟩ | ⟨shallow, count, evicts, pushed⟩
  · rw [kept]
    exact .missed hop deep
  · rw [pushed]
    exact .forced hop count shallow evicts

theorem push_system_effect (sound : mailbox.queue.Sound layout) (hop : Hop) :
    (∃ flow, (mailbox.pushSystem layout hop).2 = .handoff flow ∧ QueueEffect layout mailbox.queue mailbox.counters
        (mailbox.systemIntake hop) (mailbox.pushSystem layout hop).1.queue (mailbox.pushSystem layout hop).1.counters [hop]) ∨
      (∀ flow, (mailbox.pushSystem layout hop).2 ≠ .handoff flow) ∧ QueueEffect layout mailbox.queue mailbox.counters
        (mailbox.systemIntake hop) (mailbox.pushSystem layout hop).1.queue (mailbox.pushSystem layout hop).1.counters [] := by
  by_cases isClosed : mailbox.closed = true
  · rw [pushSystem, if_pos isClosed, systemIntake, isClosed, Bool.true_or]
    exact Or.inr ⟨fun _ same => (by cases same), .quiet⟩
  have isOpen := Bool.eq_false_iff.mpr isClosed
  rw [systemIntake, isOpen, Bool.false_or]
  rcases push_system_open layout isOpen hop with ⟨flow, _, awaited, handed⟩ | ⟨unawaited, pushed⟩
  · rw [handed, awaited]
    exact Or.inl ⟨flow, rfl, .handed hop⟩
  · rw [pushed, unawaited]
    exact Or.inr ⟨fun _ same => (by cases same), force_push_effect sound hop⟩

theorem try_pop_filter_effect (layout : Layout) (mailbox : Mailbox) (filter : WaitFilter) :
    QueueEffect layout mailbox.queue mailbox.counters .plain (mailbox.tryPopFilter layout filter).1.queue
      (mailbox.tryPopFilter layout filter).1.counters (mailbox.tryPopFilter layout filter).2.toList := by
  unfold tryPopFilter
  rcases take_case layout mailbox.queue filter with ⟨_, same⟩ | ⟨index, hop, found, _, same⟩
  · rw [same]
    exact .quiet
  · rw [same]
    exact .taken index hop found

theorem park_filter_effect (layout : Layout) (mailbox : Mailbox) (flow : FlowBox) (filter : WaitFilter) :
    (∃ epoch, (mailbox.parkFilter layout flow filter).2 = .ok epoch ∧ QueueEffect layout mailbox.queue mailbox.counters .plain
        (mailbox.parkFilter layout flow filter).1.queue (mailbox.parkFilter layout flow filter).1.counters []) ∨
      ∃ woken, (mailbox.parkFilter layout flow filter).2 = .error woken ∧ QueueEffect layout mailbox.queue mailbox.counters .plain
        (mailbox.parkFilter layout flow filter).1.queue (mailbox.parkFilter layout flow filter).1.counters
        woken.pendingMessage.toList := by
  unfold parkFilter
  rcases take_case layout mailbox.queue filter with ⟨_, same⟩ | ⟨index, hop, found, _, same⟩
  · rw [same]
    exact Or.inl ⟨_, rfl, .quiet⟩
  · rw [same]
    exact Or.inr ⟨_, rfl, .taken index hop found⟩

theorem park_sender_effect (layout : Layout) (mailbox : Mailbox) (flow : FlowBox) (message : Hop) :
    QueueEffect layout mailbox.queue mailbox.counters .plain (mailbox.parkSender layout flow message).1.queue
      (mailbox.parkSender layout flow message).1.counters [] := by
  rcases park_sender_cases layout mailbox flow message with ⟨_, _, same⟩ | ⟨room, same⟩ | ⟨_, same⟩ <;> rw [same]
  · exact .quiet
  · exact .queued message (has_room_iff.mp room)
  · exact .quiet

theorem admit_waiting_sender_effect (layout : Layout) (mailbox : Mailbox) :
    QueueEffect layout mailbox.queue mailbox.counters .plain (mailbox.admitWaitingSender layout).1.queue
      (mailbox.admitWaitingSender layout).1.counters [] := by
  rcases admit_waiting_sender_cases layout mailbox with
    ⟨_, same⟩ | ⟨waiter, _, _, ⟨_, same⟩ | ⟨room, same⟩ | ⟨_, _, _, same⟩⟩ <;> rw [same]
  · exact .quiet
  · exact .quiet
  · exact .queued waiter.message (has_room_iff.mp room)
  · exact .quiet

end Mailbox

namespace MailboxRace

variable {layout : Layout} {race after : MailboxRace}

def intake (race : MailboxRace) : MailboxEvent → Intake
  | .hostSend value => race.mailbox.pushIntake ⟨value, race.sent.length⟩
  | .send flow message => race.mailbox.pushIntake ⟨.message { message with sender := flow.id }, race.sent.length⟩
  | .pushSystem value => race.mailbox.systemIntake ⟨value, race.sent.length⟩
  | _ => .plain

def Takes (layout : Layout) (race : MailboxRace) (intake : Intake) (after : MailboxRace) : Prop :=
  ∃ got, after.obtained = race.obtained ++ got ∧
    QueueEffect layout race.mailbox.queue race.mailbox.counters intake after.mailbox.queue after.mailbox.counters got

theorem deliver_takes (layout : Layout) (race : MailboxRace) (hop : Hop) (sender : Option FlowBox) :
    Takes layout race (race.mailbox.pushIntake hop) (race.deliver layout hop sender) := by
  rcases push_effect layout race.mailbox hop with ⟨flow, handed, effect⟩ | ⟨stays, effect⟩
  · refine ⟨[hop], ?_, deliver_mailbox layout race hop sender ▸ effect⟩
    unfold deliver
    rcases pushed : race.mailbox.push layout hop with ⟨mailbox, result⟩
    rw [pushed] at handed
    cases handed
    rfl
  · refine ⟨[], ?_, deliver_mailbox layout race hop sender ▸ effect⟩
    unfold deliver
    rw [List.append_nil]
    rcases pushed : race.mailbox.push layout hop with ⟨mailbox, result⟩
    rw [pushed] at stays
    rcases result with reason | delivery
    · cases reason <;> cases sender <;> rfl
    · cases delivery with
      | handoff flow => exact absurd rfl (stays flow)
      | _ => rfl

theorem next_takes (sound : race.mailbox.queue.Sound layout) {event : MailboxEvent}
    (stepped : race.next layout event = some after) : Takes layout race (race.intake event) after := by
  cases event with
  | hostSend value =>
    cases stepped
    exact deliver_takes layout race _ none
  | send flow message =>
    simp only [next] at stepped
    split at stepped
    · cases stepped
    · cases stepped
      exact deliver_takes layout race _ (some flow)
  | parkSender index =>
    simp only [next] at stepped
    split at stepped
    · cases stepped
    · cases stepped
      exact ⟨[], (List.append_nil _).symm, park_sender_effect layout race.mailbox _ _⟩
  | pushSystem value =>
    have effect := push_system_effect sound ⟨value, race.sent.length⟩
    simp only [next] at stepped
    change Takes layout race (race.mailbox.systemIntake _) after
    generalize race.mailbox.pushSystem layout ⟨value, race.sent.length⟩ = result at effect stepped
    rcases result with ⟨mailbox, delivery⟩
    rcases effect with ⟨flow, rfl, effect⟩ | ⟨stays, effect⟩
    · cases stepped
      exact ⟨_, rfl, effect⟩
    · cases delivery with
      | handoff flow => exact absurd rfl (stays flow)
      | _ =>
        cases stepped
        exact ⟨[], (List.append_nil _).symm, effect⟩
  | tryPopFilter filter =>
    cases stepped
    exact ⟨_, rfl, try_pop_filter_effect layout race.mailbox filter⟩
  | parkFilter flow filter =>
    simp only [next] at stepped
    split at stepped
    · cases stepped
    · have effect := park_filter_effect layout race.mailbox flow filter
      generalize race.mailbox.parkFilter layout flow filter = result at effect stepped
      rcases result with ⟨mailbox, answer⟩
      rcases effect with ⟨epoch, rfl, effect⟩ | ⟨woken, rfl, effect⟩
      · cases stepped
        exact ⟨[], (List.append_nil _).symm, effect⟩
      · cases stepped
        exact ⟨_, rfl, effect⟩
  | admitWaitingSender =>
    cases stepped
    exact ⟨[], (List.append_nil _).symm, admit_waiting_sender_effect layout race.mailbox⟩
  | takeWaitingSender sender =>
    cases stepped
    refine ⟨[], (List.append_nil _).symm, ?_⟩
    dsimp only [Mailbox.takeWaitingSender]
    split <;> exact .quiet
  | takeParkedAt epoch =>
    cases stepped
    refine ⟨[], (List.append_nil _).symm, ?_⟩
    dsimp only [Mailbox.takeParkedAt]
    split
    · exact .quiet
    · cases race.mailbox.parked with
      | none | some => exact .quiet

theorem effect_sound {queue result : MailboxQueue} {counters counted : Counters} {intake : Intake} {got : List Hop}
    (sound : queue.Sound layout) (effect : QueueEffect layout queue counters intake result counted got) : result.Sound layout := by
  cases effect with
  | quiet | handed | missed => exact sound
  | queued hop free =>
    obtain ⟨slot, _, fits⟩ := crowded_false_iff.mp free
    exact sound_pushed sound slot (Or.inl fits)
  | taken index hop found => exact sound_erase sound found
  | replaced hop count evicts fits =>
    exact sound_pushed (sound_without sound count) (evicts_slot sound evicts)
      (Or.inl (exceeds_false_iff.mp fits).2)
  | refused hop count evicts exceeds => exact sound_without sound count
  | forced hop count shallow evicts => exact sound_forced sound evicts

theorem sound_initial (layout : Layout) (config : MailboxConfig) : (initial config).mailbox.queue.Sound layout :=
  sound_new _ config.capacity.2.1

theorem sound_step (sound : race.mailbox.queue.Sound layout) {event : MailboxEvent}
    (stepped : race.next layout event = some after) : after.mailbox.queue.Sound layout := by
  obtain ⟨_, _, effect⟩ := next_takes sound stepped
  exact effect_sound sound effect

end MailboxRace

end Byteflow
