import Byteflow.CapTable
import Byteflow.MailboxQueue

namespace Byteflow

open MailboxQueue

structure MailboxCapacity where
  get : Nat
  valid : 1 ≤ get ∧ get ≤ 2 ^ 20

structure MailboxBytes where
  get : Nat
  valid : 2 ^ 10 ≤ get ∧ get ≤ 2 ^ 30

structure MailboxConfig where
  capacity : MailboxCapacity
  bytes : MailboxBytes
  overflow : OverflowPolicy

def MailboxConfig.DEFAULT : MailboxConfig := ⟨⟨256, by decide⟩, ⟨2 ^ 22, by decide⟩, .reject⟩

structure MailboxStats where
  enqueued : Nat := 0
  dequeued : Nat := 0
  rejected : Nat := 0
  rejectedByteLimit : Nat := 0
  droppedNewest : Nat := 0
  droppedOldest : Nat := 0
deriving DecidableEq, Repr

-- saturating_add(1) of a u64 counter.
def bump (counter : Nat) : Nat := min (counter + 1) (2 ^ 64 - 1)

inductive PendingSend where
  | fireAndForget
  | ask (destReg : UInt8) (expectRequestId expectSender : UInt64) (timeout : Option Nat)
deriving DecidableEq, Repr

-- The fields of a Flow that mailboxes and their callers use. The machine moves
-- with the box and is not looked at there.
structure FlowBox where
  id : FlowId
  lastReceiveDest : Option UInt8 := none
  pendingMessage : Option Hop := none
  pendingSend : Option PendingSend := none

def FlowBox.withPending (flow : FlowBox) (hop : Hop) : FlowBox := { flow with pendingMessage := some hop }

structure WaitingSender where
  flow : FlowBox
  message : Hop

structure Mailbox where
  config : MailboxConfig
  queue : MailboxQueue
  parked : Option FlowBox := none
  parkedFilter : WaitFilter := .any
  waitEpoch : UInt64 := 0
  stats : MailboxStats := {}
  waitingSenders : List WaitingSender := []
  closed : Bool := false

inductive Delivery where
  | queued | queuedDropOldest | droppedNewest
  | handoff (flow : FlowBox)

inductive ParkSender where
  | parked
  | delivered (flow : FlowBox)
  | closed (flow : FlowBox)
  | waitersFull (flow : FlowBox)
  | undeliverable (flow : FlowBox)

inductive AdmitSender where
  | woken (flow : FlowBox)
  | idle
  | undeliverable (flow : FlowBox)

namespace Mailbox

variable (layout : Layout)

def withConfig (config : MailboxConfig) : Mailbox :=
  { config := config, queue := .new config.capacity.get config.bytes.get }

def countDequeued (mailbox : Mailbox) : Mailbox :=
  { mailbox with stats := { mailbox.stats with dequeued := bump mailbox.stats.dequeued } }

def countEnqueued (mailbox : Mailbox) : Mailbox :=
  { mailbox with stats := { mailbox.stats with enqueued := bump mailbox.stats.enqueued } }

def enqueueLocked (mailbox : Mailbox) (hop : Hop) (policy : OverflowPolicy) :
    Mailbox × Except MailboxFullReason Delivery :=
  match mailbox.queue.enqueue layout hop policy with
  | (queue, .ok .enqueued) => ({ mailbox with queue := queue }.countEnqueued, .ok .queued)
  | (queue, .ok .droppedOldest) =>
    let stats := { mailbox.stats with droppedOldest := bump mailbox.stats.droppedOldest }
    ({ mailbox with queue := queue, stats := stats }.countEnqueued, .ok .queuedDropOldest)
  | (queue, .ok .droppedNewest) =>
    let stats := { mailbox.stats with droppedNewest := bump mailbox.stats.droppedNewest }
    ({ mailbox with queue := queue, stats := stats }, .ok .droppedNewest)
  | (queue, .error reason) =>
    let stats := { mailbox.stats with
      rejected := bump mailbox.stats.rejected
      rejectedByteLimit :=
        if reason = .byteLimit then bump mailbox.stats.rejectedByteLimit else mailbox.stats.rejectedByteLimit }
    ({ mailbox with queue := queue, stats := stats }, .error reason)

def handOff (mailbox : Mailbox) : Mailbox :=
  { mailbox with parked := none, parkedFilter := .any }.countDequeued.countEnqueued

def push (mailbox : Mailbox) (hop : Hop) : Mailbox × Except MailboxFullReason Delivery :=
  if hop.value.withinNestingLimit = false then (mailbox, .error .byteLimit)
  else if mailbox.closed then (mailbox, .error .closed)
  else
    match mailbox.parked with
    | some flow =>
      if mailbox.parkedFilter.matches hop.value then (mailbox.handOff, .ok (.handoff flow))
      else mailbox.enqueueLocked layout hop mailbox.config.overflow
    | none => mailbox.enqueueLocked layout hop mailbox.config.overflow

def tryPopFilter (mailbox : Mailbox) (filter : WaitFilter) : Mailbox × Option Hop :=
  match mailbox.queue.take layout filter with
  | (_, none) => (mailbox, none)
  | (queue, some hop) => ({ mailbox with queue := queue }.countDequeued, some hop)

def parkFilter (mailbox : Mailbox) (flow : FlowBox) (filter : WaitFilter) : Mailbox × Except FlowBox UInt64 :=
  match mailbox.queue.take layout filter with
  | (queue, some hop) => ({ mailbox with queue := queue }.countDequeued, .error (flow.withPending hop))
  | (_, none) =>
    let epoch := mailbox.waitEpoch + 1
    ({ mailbox with waitEpoch := epoch, parkedFilter := filter, parked := some flow }, .ok epoch)

def hopCanEverFit (mailbox : Mailbox) (hop : Hop) : Bool := hop.value.memorySize layout ≤ mailbox.config.bytes.get

def takeParkedAt (mailbox : Mailbox) (epoch : UInt64) : Mailbox × Option FlowBox :=
  if mailbox.waitEpoch ≠ epoch then (mailbox, none)
  else
    match mailbox.parked with
    | some flow => ({ mailbox with parked := none, parkedFilter := .any }, some flow)
    | none => (mailbox, none)

def takeParked (mailbox : Mailbox) : Mailbox × Option FlowBox :=
  ({ mailbox with parked := none, parkedFilter := .any }, mailbox.parked)

def pushSystem (mailbox : Mailbox) (hop : Hop) : Mailbox × Delivery :=
  if mailbox.closed then (mailbox, .queued)
  else
    let forced := { mailbox with queue := mailbox.queue.forcePush layout hop }.countEnqueued
    match mailbox.parked with
    | some flow => if mailbox.parkedFilter.matches hop.value then (mailbox.handOff, .handoff flow) else (forced, .queued)
    | none => (forced, .queued)

def close (mailbox : Mailbox) : Mailbox × List FlowBox :=
  ({ mailbox with closed := true, waitingSenders := [] }, mailbox.waitingSenders.map (·.flow))

def parkSender (mailbox : Mailbox) (flow : FlowBox) (message : Hop) : Mailbox × ParkSender :=
  if mailbox.hopCanEverFit layout message = false then (mailbox, .undeliverable flow)
  else if mailbox.closed then (mailbox, .closed flow)
  else
    match mailbox.queue.tryEnqueueReject layout message with
    | .ok queue => ({ mailbox with queue := queue }.countEnqueued, .delivered flow)
    | .error message =>
      if mailbox.waitingSenders.length ≥ mailbox.config.capacity.get then (mailbox, .waitersFull flow)
      else ({ mailbox with waitingSenders := mailbox.waitingSenders ++ [⟨flow, message⟩] }, .parked)

def admitWaitingSender (mailbox : Mailbox) : Mailbox × AdmitSender :=
  if mailbox.closed then (mailbox, .idle)
  else
    match mailbox.waitingSenders with
    | [] => (mailbox, .idle)
    | waiter :: rest =>
      if mailbox.queue.canEverFit (waiter.message.value.memorySize layout) = false then
        ({ mailbox with waitingSenders := rest }, .undeliverable waiter.flow)
      else
        match { mailbox with waitingSenders := rest }.enqueueLocked layout waiter.message .reject with
        | (admitted, .ok _) => (admitted, .woken waiter.flow)
        | (refused, .error _) => ({ refused with waitingSenders := waiter :: refused.waitingSenders }, .idle)

def takeWaitingSender (mailbox : Mailbox) (sender : FlowId) : Mailbox × Option FlowBox :=
  match mailbox.waitingSenders.findIdx? (·.flow.id = sender) with
  | none => (mailbox, none)
  | some position =>
    ({ mailbox with waitingSenders := mailbox.waitingSenders.eraseIdx position },
      mailbox.waitingSenders[position]?.map (·.flow))

def awaits (mailbox : Mailbox) (hop : Hop) : Bool := mailbox.parked.isSome && mailbox.parkedFilter.matches hop.value

section Lemmas

variable {layout : Layout} {mailbox : Mailbox}

theorem enqueue_locked_frame (layout : Layout) (mailbox : Mailbox) (hop : Hop) (policy : OverflowPolicy) :
    ∃ stats, (mailbox.enqueueLocked layout hop policy).1 =
      { mailbox with queue := (mailbox.queue.enqueue layout hop policy).1, stats := stats } := by
  unfold enqueueLocked
  rcases mailbox.queue.enqueue layout hop policy with ⟨queue, outcome⟩
  cases outcome with
  | error reason => exact ⟨_, rfl⟩
  | ok effect => cases effect <;> exact ⟨_, rfl⟩

theorem enqueue_locked_reject_ok {hop : Hop} {delivery : Delivery}
    (accepted : (mailbox.enqueueLocked layout hop .reject).2 = .ok delivery) :
    delivery = .queued ∧ mailbox.queue.hasRoom layout hop = true ∧
      (mailbox.queue.enqueue layout hop .reject).1.hops = mailbox.queue.hops ++ [hop] := by
  unfold enqueueLocked at accepted
  have outcome := enqueue_case layout mailbox.queue hop .reject
  generalize mailbox.queue.enqueue layout hop .reject = result at outcome accepted ⊢
  cases outcome with
  | room _ _ free =>
    cases accepted
    exact ⟨rfl, has_room_iff.mpr free, rfl⟩
  | nested | reject => cases accepted

theorem enqueue_locked_reject_error {hop : Hop} {reason : MailboxFullReason}
    (refused : (mailbox.enqueueLocked layout hop .reject).2 = .error reason) :
    reason ≠ .closed ∧ (mailbox.queue.enqueue layout hop .reject).1 = mailbox.queue := by
  unfold enqueueLocked at refused
  have outcome := enqueue_case layout mailbox.queue hop .reject
  generalize mailbox.queue.enqueue layout hop .reject = result at outcome refused ⊢
  cases outcome with
  | room => cases refused
  | nested =>
    cases refused
    exact ⟨by decide, rfl⟩
  | reject =>
    cases refused
    exact ⟨by split <;> decide, rfl⟩

theorem awaits_some {flow : FlowBox} (parked : mailbox.parked = some flow) (hop : Hop) :
    mailbox.awaits hop = mailbox.parkedFilter.matches hop.value := by simp [awaits, parked]

theorem awaits_none (unparked : mailbox.parked = none) (hop : Hop) : mailbox.awaits hop = false := by
  simp [awaits, unparked]

theorem push_open (layout : Layout) {hop : Hop} (shallow : ¬ hop.value.withinNestingLimit = false) (isOpen : mailbox.closed = false) :
    (∃ flow, mailbox.parked = some flow ∧ mailbox.awaits hop = true ∧
        mailbox.push layout hop = (mailbox.handOff, .ok (.handoff flow))) ∨
      (mailbox.awaits hop = false ∧ mailbox.push layout hop = mailbox.enqueueLocked layout hop mailbox.config.overflow) := by
  rw [push, if_neg shallow, isOpen, if_neg Bool.false_ne_true]
  cases parked : mailbox.parked with
  | none => exact Or.inr ⟨awaits_none parked hop, rfl⟩
  | some flow =>
    rw [awaits_some parked]
    cases mailbox.parkedFilter.matches hop.value with
    | true => exact Or.inl ⟨flow, rfl, rfl, rfl⟩
    | false => exact Or.inr ⟨rfl, rfl⟩

theorem push_cases (layout : Layout) (mailbox : Mailbox) (hop : Hop) :
    (∃ reason, mailbox.push layout hop = (mailbox, .error reason)) ∨
      (∃ flow, mailbox.parked = some flow ∧ mailbox.awaits hop = true ∧
        mailbox.push layout hop = (mailbox.handOff, .ok (.handoff flow))) ∨
      (mailbox.awaits hop = false ∧ mailbox.push layout hop = mailbox.enqueueLocked layout hop mailbox.config.overflow) := by
  by_cases nested : hop.value.withinNestingLimit = false
  · exact Or.inl ⟨.byteLimit, by simp [push, nested]⟩
  · by_cases isClosed : mailbox.closed = true
    · exact Or.inl ⟨.closed, by simp [push, nested, isClosed]⟩
    · exact Or.inr (push_open layout nested (Bool.eq_false_iff.mpr isClosed))

theorem push_outcome (layout : Layout) (mailbox : Mailbox) (hop : Hop) :
    (∃ kept delivery, kept <:+ mailbox.queue.hops ∧ (mailbox.push layout hop).1.queue.hops = kept ++ [hop] ∧
        (mailbox.push layout hop).2 = .ok delivery ∧ (delivery = .queued ∨ delivery = .queuedDropOldest)) ∨
      (∃ flow, mailbox.parked = some flow ∧ mailbox.push layout hop = (mailbox.handOff, .ok (.handoff flow))) ∨
      ((mailbox.push layout hop).1.queue.hops <:+ mailbox.queue.hops ∧ (mailbox.push layout hop).1.parked = mailbox.parked ∧
        ((mailbox.push layout hop).2 = .ok .droppedNewest ∨ ∃ reason, (mailbox.push layout hop).2 = .error reason)) := by
  rcases push_cases layout mailbox hop with ⟨reason, refused⟩ | ⟨flow, parked, _, handed⟩ | ⟨_, enqueued⟩
  · rw [refused]
    exact Or.inr (Or.inr ⟨List.suffix_rfl, rfl, Or.inr ⟨reason, rfl⟩⟩)
  · exact Or.inr (Or.inl ⟨flow, parked, handed⟩)
  · rw [enqueued]
    obtain ⟨stats, frame⟩ := enqueue_locked_frame layout mailbox hop mailbox.config.overflow
    have outcome := enqueue_outcome layout mailbox.queue hop mailbox.config.overflow
    rw [frame]
    unfold enqueueLocked
    revert outcome
    rcases mailbox.queue.enqueue layout hop mailbox.config.overflow with ⟨queue, result⟩
    rintro (⟨kept, effect, front, hops, rfl, stays⟩ | ⟨kept, rfl | ⟨reason, rfl⟩⟩)
    · cases effect with
      | enqueued => exact Or.inl ⟨kept, .queued, front, hops, rfl, Or.inl rfl⟩
      | droppedOldest => exact Or.inl ⟨kept, .queuedDropOldest, front, hops, rfl, Or.inr rfl⟩
      | droppedNewest => exact absurd rfl stays
    · exact Or.inr (Or.inr ⟨kept, rfl, Or.inl rfl⟩)
    · exact Or.inr (Or.inr ⟨kept, rfl, Or.inr ⟨reason, rfl⟩⟩)

theorem push_system_open (layout : Layout) (isOpen : mailbox.closed = false) (hop : Hop) :
    (∃ flow, mailbox.parked = some flow ∧ mailbox.awaits hop = true ∧
        mailbox.pushSystem layout hop = (mailbox.handOff, .handoff flow)) ∨
      (mailbox.awaits hop = false ∧ mailbox.pushSystem layout hop =
        ({ mailbox with queue := mailbox.queue.forcePush layout hop }.countEnqueued, .queued)) := by
  rw [pushSystem, isOpen, if_neg Bool.false_ne_true]
  cases parked : mailbox.parked with
  | none => exact Or.inr ⟨awaits_none parked hop, rfl⟩
  | some flow =>
    rw [awaits_some parked]
    cases mailbox.parkedFilter.matches hop.value with
    | true => exact Or.inl ⟨flow, rfl, rfl, rfl⟩
    | false => exact Or.inr ⟨rfl, rfl⟩

theorem push_system_cases (layout : Layout) (mailbox : Mailbox) (hop : Hop) :
    mailbox.pushSystem layout hop = (mailbox, .queued) ∨
      (∃ flow, mailbox.parked = some flow ∧ mailbox.awaits hop = true ∧
        mailbox.pushSystem layout hop = (mailbox.handOff, .handoff flow)) ∨
      (mailbox.awaits hop = false ∧ mailbox.pushSystem layout hop =
        ({ mailbox with queue := mailbox.queue.forcePush layout hop }.countEnqueued, .queued)) := by
  by_cases isClosed : mailbox.closed = true
  · exact Or.inl (by simp [pushSystem, isClosed])
  · exact Or.inr (push_system_open layout (Bool.eq_false_iff.mpr isClosed) hop)

theorem park_sender_cases (layout : Layout) (mailbox : Mailbox) (flow : FlowBox) (message : Hop) :
    (∃ refusal, (refusal = .undeliverable flow ∨ refusal = .closed flow ∨ refusal = .waitersFull flow) ∧
        mailbox.parkSender layout flow message = (mailbox, refusal)) ∨
      (mailbox.queue.hasRoom layout message = true ∧ mailbox.parkSender layout flow message =
        ({ mailbox with queue := mailbox.queue.pushed layout message }.countEnqueued, .delivered flow)) ∨
      (mailbox.queue.tryEnqueueReject layout message = .error message ∧ mailbox.parkSender layout flow message =
        ({ mailbox with waitingSenders := mailbox.waitingSenders ++ [⟨flow, message⟩] }, .parked)) := by
  unfold parkSender
  split
  · exact Or.inl ⟨_, Or.inl rfl, rfl⟩
  · split
    · exact Or.inl ⟨_, Or.inr (Or.inl rfl), rfl⟩
    · cases tried : mailbox.queue.tryEnqueueReject layout message with
      | ok queue =>
        obtain ⟨rfl, room⟩ := try_enqueue_reject_ok tried
        exact Or.inr (Or.inl ⟨has_room_iff.mpr room, rfl⟩)
      | error other =>
        obtain rfl := try_enqueue_reject_error tried
        dsimp only
        split
        · exact Or.inl ⟨_, Or.inr (Or.inr rfl), rfl⟩
        · exact Or.inr (Or.inr ⟨rfl, rfl⟩)

theorem admit_waiting_sender_cases (layout : Layout) (mailbox : Mailbox) :
    ((mailbox.closed = true ∨ mailbox.waitingSenders = []) ∧ mailbox.admitWaitingSender layout = (mailbox, .idle)) ∨
      ∃ waiter rest, mailbox.waitingSenders = waiter :: rest ∧
        (mailbox.queue.canEverFit (waiter.message.value.memorySize layout) = false ∧ mailbox.admitWaitingSender layout =
            ({ mailbox with waitingSenders := rest }, .undeliverable waiter.flow) ∨
          mailbox.queue.hasRoom layout waiter.message = true ∧ mailbox.admitWaitingSender layout =
            ({ mailbox with queue := mailbox.queue.pushed layout waiter.message, waitingSenders := rest }.countEnqueued,
              .woken waiter.flow) ∨
          mailbox.queue.tryEnqueueReject layout waiter.message = .error waiter.message ∧ ∃ rejected bytes,
            mailbox.admitWaitingSender layout = ({ mailbox with
              stats := { mailbox.stats with rejected := rejected, rejectedByteLimit := bytes } }, .idle)) := by
  unfold admitWaitingSender
  split
  · exact Or.inl ⟨Or.inl (by assumption), rfl⟩
  · cases waiting : mailbox.waitingSenders with
    | nil => exact Or.inl ⟨Or.inr rfl, rfl⟩
    | cons waiter rest =>
      refine Or.inr ⟨waiter, rest, rfl, ?_⟩
      dsimp only
      split
      · exact Or.inl ⟨by assumption, rfl⟩
      · rw [try_enqueue_reject_eq]
        have outcome := enqueue_case layout mailbox.queue waiter.message .reject
        unfold enqueueLocked
        dsimp only
        generalize mailbox.queue.enqueue layout waiter.message .reject = result at outcome
        cases outcome with
        | room _ _ free => exact Or.inr (Or.inl ⟨has_room_iff.mpr free, rfl⟩)
        | nested _ deep => exact Or.inr (Or.inr ⟨if_neg (by simp [deep]), _, _, rfl⟩)
        | reject _ full => exact Or.inr (Or.inr ⟨if_neg (by simp [full]), _, _, rfl⟩)

end Lemmas

end Mailbox

end Byteflow
