import Byteflow.Mailbox
import Byteflow.Transition

namespace Byteflow

open Transition

-- One mailbox and the senders between a refused push and their park_sender.
-- sent and obtained are the history of the run.
structure MailboxRace where
  mailbox : Mailbox
  refused : List WaitingSender
  sent : List Hop
  obtained : List Hop

-- One event is one acquisition of the mailbox lock.
inductive MailboxEvent where
  | hostSend (value : Value)
  | send (flow : FlowBox) (message : Message)
  | parkSender (index : Nat)
  | pushSystem (value : Value)
  | tryPopFilter (filter : WaitFilter)
  | parkFilter (flow : FlowBox) (filter : WaitFilter)
  | admitWaitingSender
  | takeWaitingSender (sender : FlowId)
  | takeParkedAt (epoch : UInt64)

namespace MailboxRace

variable (layout : Layout)

def initial (config : MailboxConfig) : MailboxRace := ⟨.withConfig config, [], [], []⟩

-- deliver of worker.rs. A bytecode sender whose hop was refused goes on to
-- park_sender, the host only sees the error.
def deliver (race : MailboxRace) (hop : Hop) (sender : Option FlowBox) : MailboxRace :=
  let sent := race.sent ++ [hop]
  match race.mailbox.push layout hop with
  | (mailbox, .ok (.handoff _)) => { race with mailbox := mailbox, sent := sent, obtained := race.obtained ++ [hop] }
  | (mailbox, .ok _) | (mailbox, .error .closed) => { race with mailbox := mailbox, sent := sent }
  | (mailbox, .error _) =>
    match sender with
    | none => { race with mailbox := mailbox, sent := sent }
    | some flow => { race with mailbox := mailbox, sent := sent, refused := race.refused ++ [⟨flow, hop⟩] }

-- A flow that waits here is in no worker's hands.
def busy (race : MailboxRace) (id : FlowId) : Bool :=
  race.refused.any (·.flow.id = id) || race.mailbox.waitingSenders.any (·.flow.id = id)

def next (race : MailboxRace) : MailboxEvent → Option MailboxRace
  | .hostSend value => some (race.deliver layout ⟨value, race.sent.length⟩ none)
  | .send flow message =>
    if race.busy flow.id then none
    else some (race.deliver layout ⟨.message { message with sender := flow.id }, race.sent.length⟩ (some flow))
  | .parkSender index =>
    match race.refused[index]? with
    | none => none
    | some waiter =>
      some { race with
        mailbox := (race.mailbox.parkSender layout waiter.flow waiter.message).1
        refused := race.refused.eraseIdx index }
  | .pushSystem value =>
    let hop : Hop := ⟨value, race.sent.length⟩
    match race.mailbox.pushSystem layout hop with
    | (mailbox, .handoff _) =>
      some { race with mailbox := mailbox, sent := race.sent ++ [hop], obtained := race.obtained ++ [hop] }
    | (mailbox, _) => some { race with mailbox := mailbox, sent := race.sent ++ [hop] }
  | .tryPopFilter filter =>
    let (mailbox, hop) := race.mailbox.tryPopFilter layout filter
    some { race with mailbox := mailbox, obtained := race.obtained ++ hop.toList }
  | .parkFilter flow filter =>
    -- The debug assertion of park_filter: the one flow that parks here is the owner.
    if race.mailbox.parked.isSome then none
    else
      match race.mailbox.parkFilter layout flow filter with
      | (mailbox, .ok _) => some { race with mailbox := mailbox }
      | (mailbox, .error flow) =>
        some { race with mailbox := mailbox, obtained := race.obtained ++ flow.pendingMessage.toList }
  | .admitWaitingSender => some { race with mailbox := (race.mailbox.admitWaitingSender layout).1 }
  | .takeWaitingSender sender => some { race with mailbox := (race.mailbox.takeWaitingSender sender).1 }
  | .takeParkedAt epoch => some { race with mailbox := (race.mailbox.takeParkedAt epoch).1 }

-- A refused sender that parks, or a waiting sender that is admitted, finds no
-- room for a hop the parked receiver waits for: these two paths do not wake it.
def NoRoomForAwaited (race : MailboxRace) : MailboxEvent → Prop
  | .parkSender index => ∀ waiter ∈ race.refused[index]?, race.mailbox.awaits waiter.message →
      race.mailbox.queue.hasRoom layout waiter.message = false
  | .admitWaitingSender => ∀ waiter ∈ race.mailbox.waitingSenders.head?, race.mailbox.awaits waiter.message →
      race.mailbox.queue.hasRoom layout waiter.message = false
  | _ => True

instance (race : MailboxRace) : ∀ event, Decidable (race.NoRoomForAwaited layout event)
  | .parkSender _ | .admitWaitingSender => by
    unfold NoRoomForAwaited
    infer_instance
  | .hostSend _ | .send .. | .pushSystem _ | .tryPopFilter _ | .parkFilter .. | .takeWaitingSender _ | .takeParkedAt _ =>
    isTrue trivial

def Settled (mailbox : Mailbox) : Prop := ∀ hop ∈ mailbox.queue.hops, mailbox.awaits hop = false

section Steps

variable {layout : Layout} {mailbox : Mailbox}

theorem settled_unparked (unparked : mailbox.parked = none) : Settled mailbox := by
  intro hop _
  simp [Mailbox.awaits, unparked]

theorem settled_requeue {after : Mailbox} (settled : Settled mailbox) (parked : after.parked = mailbox.parked)
    (filter : after.parkedFilter = mailbox.parkedFilter)
    (hops : ∀ hop ∈ after.queue.hops, hop ∈ mailbox.queue.hops ∨ mailbox.awaits hop = false) : Settled after := by
  intro hop member
  have same : after.awaits hop = mailbox.awaits hop := by simp only [Mailbox.awaits, parked, filter]
  rw [same]
  rcases hops hop member with old | unawaited
  · exact settled hop old
  · exact unawaited

theorem requeue_hops {hop : Hop} {kept after : List Hop} (suffix : kept <:+ mailbox.queue.hops)
    (cases_ : after = kept ∨ after = kept ++ [hop]) (unawaited : mailbox.awaits hop = false) :
    ∀ other ∈ after, other ∈ mailbox.queue.hops ∨ mailbox.awaits other = false := by
  intro other member
  rcases cases_ with rfl | rfl
  · exact Or.inl (suffix.subset member)
  · rcases List.mem_append.mp member with old | new
    · exact Or.inl (suffix.subset old)
    · rw [List.mem_singleton.mp new]
      exact Or.inr unawaited

theorem enqueue_locked_settled (settled : Settled mailbox) (hop : Hop) (policy : OverflowPolicy)
    (unawaited : mailbox.awaits hop = false) : Settled (mailbox.enqueueLocked layout hop policy).1 := by
  obtain ⟨stats, frame⟩ := Mailbox.enqueue_locked_frame layout mailbox hop policy
  obtain ⟨kept, suffix, hops⟩ := MailboxQueue.enqueue_hops layout mailbox.queue hop policy
  rw [frame]
  exact settled_requeue settled rfl rfl (requeue_hops suffix hops unawaited)

theorem push_settled (settled : Settled mailbox) (hop : Hop) : Settled (mailbox.push layout hop).1 := by
  rcases Mailbox.push_cases layout mailbox hop with ⟨_, same⟩ | ⟨_, _, _, same⟩ | ⟨unawaited, same⟩
  · rw [same]
    exact settled
  · rw [same]
    exact settled_unparked rfl
  · rw [same]
    exact enqueue_locked_settled settled hop _ unawaited

theorem push_system_settled (settled : Settled mailbox) (hop : Hop) : Settled (mailbox.pushSystem layout hop).1 := by
  rcases Mailbox.push_system_cases layout mailbox hop with
    same | ⟨_, _, _, same⟩ | ⟨unawaited, same⟩
  · rw [same]
    exact settled
  · rw [same]
    exact settled_unparked rfl
  · obtain ⟨kept, suffix, hops⟩ := MailboxQueue.force_push_hops layout mailbox.queue hop
    rw [same]
    exact settled_requeue settled rfl rfl (requeue_hops suffix hops unawaited)

theorem try_pop_filter_settled (settled : Settled mailbox) (filter : WaitFilter) :
    Settled (mailbox.tryPopFilter layout filter).1 := by
  unfold Mailbox.tryPopFilter
  cases taken : mailbox.queue.take layout filter with
  | mk queue hop =>
    cases hop with
    | none => exact settled
    | some hop =>
      dsimp only
      refine settled_requeue settled rfl rfl fun other member => ?_
      exact Or.inl ((MailboxQueue.take_some taken).1.subset member)

theorem park_filter_settled (unparked : mailbox.parked = none) (flow : FlowBox) (filter : WaitFilter) :
    Settled (mailbox.parkFilter layout flow filter).1 := by
  unfold Mailbox.parkFilter
  cases taken : mailbox.queue.take layout filter with
  | mk queue hop =>
    cases hop with
    | none =>
      intro other member
      simp [Mailbox.awaits, MailboxQueue.take_none taken other member]
    | some hop => exact settled_unparked unparked

theorem unawaited_of_room {hop : Hop} (noRoom : mailbox.awaits hop → mailbox.queue.hasRoom layout hop = false)
    (room : mailbox.queue.hasRoom layout hop = true) : mailbox.awaits hop = false := by
  by_contra waits
  rw [noRoom (by simpa using waits)] at room
  cases room

theorem park_sender_settled (settled : Settled mailbox) (flow : FlowBox) (message : Hop)
    (noRoom : mailbox.awaits message → mailbox.queue.hasRoom layout message = false) :
    Settled (mailbox.parkSender layout flow message).1 := by
  rcases Mailbox.park_sender_cases layout mailbox flow message with ⟨_, _, same⟩ | ⟨room, same⟩ | ⟨_, same⟩ <;> rw [same]
  · exact settled
  · exact settled_requeue settled rfl rfl (requeue_hops List.suffix_rfl (Or.inr rfl) (unawaited_of_room noRoom room))
  · exact settled

theorem admit_waiting_sender_settled (settled : Settled mailbox)
    (noRoom : ∀ waiter ∈ mailbox.waitingSenders.head?, mailbox.awaits waiter.message →
      mailbox.queue.hasRoom layout waiter.message = false) : Settled (mailbox.admitWaitingSender layout).1 := by
  rcases Mailbox.admit_waiting_sender_cases layout mailbox with
    ⟨_, same⟩ | ⟨waiter, rest, waiting, ⟨_, same⟩ | ⟨room, same⟩ | ⟨_, _, _, same⟩⟩ <;> rw [same]
  · exact settled
  · exact settled
  · have unawaited := unawaited_of_room (noRoom waiter (by simp [waiting])) room
    exact settled_requeue settled rfl rfl (requeue_hops List.suffix_rfl (Or.inr rfl) unawaited)
  · exact settled

theorem take_parked_at_settled (settled : Settled mailbox) (epoch : UInt64) : Settled (mailbox.takeParkedAt epoch).1 := by
  unfold Mailbox.takeParkedAt
  split
  · exact settled
  · cases mailbox.parked with
    | none => exact settled
    | some flow => exact settled_unparked rfl

theorem take_waiting_sender_settled (settled : Settled mailbox) (sender : FlowId) :
    Settled (mailbox.takeWaitingSender sender).1 := by
  unfold Mailbox.takeWaitingSender
  split
  · exact settled
  · exact settled

theorem deliver_mailbox (layout : Layout) (race : MailboxRace) (hop : Hop) (sender : Option FlowBox) :
    (race.deliver layout hop sender).mailbox = (race.mailbox.push layout hop).1 := by
  unfold deliver
  split <;> first | rfl | (split <;> simp_all) | simp_all

theorem deliver_settled {race : MailboxRace} (settled : Settled race.mailbox) (hop : Hop) (sender : Option FlowBox) :
    Settled (race.deliver layout hop sender).mailbox := by
  rw [deliver_mailbox]
  exact push_settled settled hop

theorem settled_step {race after : MailboxRace} (settled : Settled race.mailbox) (event : MailboxEvent)
    (noRoom : race.NoRoomForAwaited layout event) (stepped : race.next layout event = some after) :
    Settled after.mailbox := by
  cases event with
  | hostSend value =>
    cases stepped
    exact deliver_settled settled _ none
  | send flow message =>
    simp only [next] at stepped
    split at stepped
    · cases stepped
    · cases stepped
      exact deliver_settled settled _ (some flow)
  | parkSender index =>
    simp only [next] at stepped
    cases found : race.refused[index]? with
    | none => simp [found] at stepped
    | some waiter =>
      simp only [found, Option.some.injEq] at stepped
      subst stepped
      exact park_sender_settled settled waiter.flow waiter.message (noRoom waiter found)
  | pushSystem value =>
    have pushed : Settled (race.mailbox.pushSystem layout ⟨value, race.sent.length⟩).1 := push_system_settled settled _
    simp only [next] at stepped
    split at stepped
    all_goals
      rename_i outcome
      cases stepped
      simpa only [outcome] using pushed
  | tryPopFilter filter =>
    cases stepped
    exact try_pop_filter_settled settled filter
  | parkFilter flow filter =>
    simp only [next] at stepped
    split at stepped
    · cases stepped
    · rename_i free
      have parked : Settled (race.mailbox.parkFilter layout flow filter).1 :=
        park_filter_settled (by simpa using free) flow filter
      split at stepped
      all_goals
        rename_i outcome
        cases stepped
        simpa only [outcome] using parked
  | admitWaitingSender =>
    cases stepped
    exact admit_waiting_sender_settled settled noRoom
  | takeWaitingSender sender =>
    cases stepped
    exact take_waiting_sender_settled settled sender
  | takeParkedAt epoch =>
    cases stepped
    exact take_parked_at_settled settled epoch

end Steps

theorem reached_settled (config : MailboxConfig) {race : MailboxRace}
    (reached : Reach (next layout) (NoRoomForAwaited layout) (initial config) race) : Settled race.mailbox := by
  have start : Settled (initial config).mailbox := by
    intro hop member
    cases member
  have kept : ∀ (before : MailboxRace) event (after : MailboxRace), Settled before.mailbox → before.NoRoomForAwaited layout event →
      before.next layout event = some after → Settled after.mailbox := by
    intro before event after settled noRoom stepped
    exact settled_step settled event noRoom stepped
  exact @reach_invariant _ _ _ _ _ _ (fun race => Settled race.mailbox) start kept reached

theorem no_lost_wakeup (config : MailboxConfig) (race : MailboxRace)
    (reached : Reach (next layout) (NoRoomForAwaited layout) (initial config) race) (flow : FlowBox)
    (parked : race.mailbox.parked = some flow) (hop : Hop) (queued : hop ∈ race.mailbox.queue.hops) :
    race.mailbox.parkedFilter.matches hop.value = false := by
  have settled := reached_settled layout config reached hop queued
  rwa [Mailbox.awaits_some parked] at settled

def narrow : MailboxConfig := ⟨⟨1, by decide⟩, ⟨2 ^ 10, by decide⟩, .reject⟩

theorem two_slots_valid : 1 ≤ 2 ∧ 2 ≤ 2 ^ 20 := by decide

def ping : Message := .new 0 1 7 .unit

def backpressureEvents : List MailboxEvent :=
  [.send { id := 2 } ping, .send { id := 3 } ping, .parkSender 0, .tryPopFilter .any, .admitWaitingSender,
    .parkFilter { id := 1 } (.tag 9)]

theorem backpressure_keeps_wakeup : ∃ race, Reach (next .word) (NoRoomForAwaited .word) (initial narrow) race ∧
    ∃ flow hop, race.mailbox.parked = some flow ∧ race.mailbox.queue.hops = [hop] ∧
      race.mailbox.parkedFilter.matches hop.value = false := by
  obtain ⟨race, played, flow, hop, parked, hops⟩ : ∃ race,
      play (next .word) (initial narrow) backpressureEvents = some race ∧
      ∃ flow hop, race.mailbox.parked = some flow ∧ race.mailbox.queue.hops = [hop] := ⟨_, rfl, _, _, rfl, rfl⟩
  have reached : Reach (next .word) (NoRoomForAwaited .word) (initial narrow) race :=
    reach_of_play backpressureEvents (initial narrow) (by decide) played
  exact ⟨race, reached, flow, hop, parked, hops,
    no_lost_wakeup .word narrow race reached flow parked hop (by rw [hops]; exact List.mem_singleton_self hop)⟩

-- The refused sender parks only after the receiver has drained the mailbox and
-- gone to sleep: its hop is queued and nobody is woken.
def sleepingEvents : List MailboxEvent :=
  [.send { id := 2 } ping, .send { id := 3 } ping, .tryPopFilter .any, .parkFilter { id := 1 } .any, .parkSender 0]

theorem park_sender_loses_wakeup : ∃ race, Reach (next .word) (fun _ _ => True) (initial narrow) race ∧
    ∃ flow hop, race.mailbox.parked = some flow ∧ hop ∈ race.mailbox.queue.hops ∧
      race.mailbox.parkedFilter.matches hop.value = true := by
  obtain ⟨race, played, flow, hop, parked, hops, waits⟩ : ∃ race,
      play (next .word) (initial narrow) sleepingEvents = some race ∧
      ∃ flow hop, race.mailbox.parked = some flow ∧ race.mailbox.queue.hops = [hop] ∧
        race.mailbox.parkedFilter.matches hop.value = true := ⟨_, rfl, _, _, rfl, rfl, rfl⟩
  exact ⟨race, reach_of_play sleepingEvents (initial narrow) (all_meet_of_forall (fun _ _ => trivial) _ _) played,
    flow, hop, parked, by rw [hops]; exact List.mem_singleton_self hop, waits⟩

end MailboxRace

end Byteflow
