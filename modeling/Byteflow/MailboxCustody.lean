import Byteflow.Mailbox
import Byteflow.Tally

namespace Byteflow

open List

def FlowBox.ids (boxes : List FlowBox) : List FlowId := boxes.map (·.id)

def Delivery.boxes : Delivery → List FlowBox
  | .handoff flow => [flow]
  | .queued | .queuedDropOldest | .droppedNewest => []

def ParkSender.boxes : ParkSender → List FlowBox
  | .parked => []
  | .delivered flow | .closed flow | .waitersFull flow | .undeliverable flow => [flow]

def AdmitSender.boxes : AdmitSender → List FlowBox
  | .idle => []
  | .woken flow | .undeliverable flow => [flow]

namespace Mailbox

def boxes (mailbox : Mailbox) : List FlowBox := mailbox.parked.toList ++ mailbox.waitingSenders.map (·.flow)

def held (mailbox : Mailbox) : List FlowId := FlowBox.ids mailbox.boxes

def pushed : Except MailboxFullReason Delivery → List FlowBox
  | .ok delivery => delivery.boxes
  | .error _ => []

def unparked : Except FlowBox UInt64 → List FlowBox
  | .ok _ => []
  | .error flow => [flow]

-- A mailbox function given some boxes: each box it had or was given it still
-- has or gives back, and it parks nobody.
structure Passes (mailbox after : Mailbox) (given taken : List FlowBox) : Prop where
  kept : (FlowBox.ids given ++ mailbox.held).Perm (FlowBox.ids taken ++ after.held)
  parked : ∀ flow, after.parked = some flow → mailbox.parked = some flow

section Custody

variable {layout : Layout} {mailbox after : Mailbox}

theorem passes_same (boxes_ : List FlowBox) (parked : after.parked = mailbox.parked)
    (waiting : after.waitingSenders = mailbox.waitingSenders) : Passes mailbox after boxes_ boxes_ := by
  refine ⟨List.Perm.of_eq ?_, fun flow => parked ▸ id⟩
  rw [held, held, boxes, boxes, parked, waiting]

theorem passes_requeue (mailbox : Mailbox) (queue : MailboxQueue) (stats : MailboxStats) (boxes_ : List FlowBox) :
    Passes mailbox { mailbox with queue := queue, stats := stats } boxes_ boxes_ := passes_same boxes_ rfl rfl

theorem passes_unparked {flow : FlowBox} (parked : mailbox.parked = some flow) (gone : after.parked = none)
    (waiting : after.waitingSenders = mailbox.waitingSenders) : Passes mailbox after [] [flow] := by
  refine ⟨List.Perm.of_eq ?_, fun other there => by rw [gone] at there; cases there⟩
  rw [held, held, boxes, boxes, parked, gone, waiting]
  rfl

theorem enqueue_locked_passes (layout : Layout) (mailbox : Mailbox) (hop : Hop) (policy : OverflowPolicy) :
    Passes mailbox (mailbox.enqueueLocked layout hop policy).1 [] (pushed (mailbox.enqueueLocked layout hop policy).2) := by
  obtain ⟨stats, frame⟩ := enqueue_locked_frame layout mailbox hop policy
  have nothing : pushed (mailbox.enqueueLocked layout hop policy).2 = [] := by
    unfold enqueueLocked
    rcases mailbox.queue.enqueue layout hop policy with ⟨queue, outcome⟩
    cases outcome with
    | error reason => rfl
    | ok effect => cases effect <;> rfl
  rw [nothing, frame]
  exact passes_requeue mailbox _ _ []

theorem push_passes (layout : Layout) (mailbox : Mailbox) (hop : Hop) :
    Passes mailbox (mailbox.push layout hop).1 [] (pushed (mailbox.push layout hop).2) := by
  rcases push_cases layout mailbox hop with ⟨_, same⟩ | ⟨flow, parked, _, same⟩ | ⟨_, same⟩
  · rw [same]
    exact passes_requeue mailbox _ _ []
  · rw [same]
    exact passes_unparked parked rfl rfl
  · rw [same]
    exact enqueue_locked_passes layout mailbox hop mailbox.config.overflow

theorem push_system_passes (layout : Layout) (mailbox : Mailbox) (hop : Hop) :
    Passes mailbox (mailbox.pushSystem layout hop).1 [] (mailbox.pushSystem layout hop).2.boxes := by
  rcases push_system_cases layout mailbox hop with same | ⟨flow, parked, _, same⟩ | ⟨_, same⟩
  · rw [same]
    exact passes_requeue mailbox _ _ []
  · rw [same]
    exact passes_unparked parked rfl rfl
  · rw [same]
    exact passes_requeue mailbox _ _ []

theorem try_pop_filter_passes (layout : Layout) (mailbox : Mailbox) (filter : WaitFilter) :
    Passes mailbox (mailbox.tryPopFilter layout filter).1 [] [] := by
  unfold tryPopFilter
  rcases mailbox.queue.take layout filter with ⟨queue, hop⟩
  cases hop with
  | none | some => exact passes_requeue mailbox _ _ []

theorem park_sender_passes (layout : Layout) (mailbox : Mailbox) (flow : FlowBox) (message : Hop) :
    Passes mailbox (mailbox.parkSender layout flow message).1 [flow] (mailbox.parkSender layout flow message).2.boxes := by
  rcases park_sender_cases layout mailbox flow message with ⟨refusal, known, same⟩ | ⟨_, same⟩ | ⟨_, same⟩ <;> rw [same]
  · rcases known with rfl | rfl | rfl <;> exact passes_requeue mailbox _ _ [flow]
  · exact passes_requeue mailbox _ _ [flow]
  · -- The sender joins the waiters at the end.
    have joined : held { mailbox with waitingSenders := mailbox.waitingSenders ++ [⟨flow, message⟩] } =
        mailbox.held ++ [flow.id] := by
      simp [held, boxes, FlowBox.ids]
    refine ⟨?_, fun _ => id⟩
    dsimp only
    rw [joined]
    exact (perm_append_singleton flow.id mailbox.held).symm

theorem admit_waiting_sender_passes (layout : Layout) (mailbox : Mailbox) :
    Passes mailbox (mailbox.admitWaitingSender layout).1 [] (mailbox.admitWaitingSender layout).2.boxes := by
  have first : ∀ {waiter rest} {left : Mailbox}, mailbox.waitingSenders = waiter :: rest → left.parked = mailbox.parked →
      left.waitingSenders = rest → Passes mailbox left [] [waiter.flow] := by
    intro waiter rest left waiting parked others
    refine ⟨?_, fun flow => parked ▸ id⟩
    simp only [held, boxes, FlowBox.ids, parked, others, waiting, map_append, map_cons]
    exact perm_middle
  rcases admit_waiting_sender_cases layout mailbox with
    ⟨_, same⟩ | ⟨_, _, waiting, ⟨_, same⟩ | ⟨_, same⟩ | ⟨_, _, _, same⟩⟩ <;> rw [same]
  · exact passes_requeue mailbox _ _ []
  · exact first waiting rfl rfl
  · exact first waiting rfl rfl
  · exact passes_requeue mailbox _ _ []

theorem take_parked_passes (mailbox : Mailbox) : Passes mailbox mailbox.takeParked.1 [] mailbox.takeParked.2.toList := by
  cases parked : mailbox.parked with
  | none =>
    rw [takeParked, parked]
    exact passes_same [] parked.symm (by rfl)
  | some flow =>
    rw [takeParked, parked]
    exact passes_unparked parked rfl rfl

theorem take_parked_at_passes (mailbox : Mailbox) (epoch : UInt64) :
    Passes mailbox (mailbox.takeParkedAt epoch).1 [] (mailbox.takeParkedAt epoch).2.toList := by
  unfold takeParkedAt
  split
  · exact passes_requeue mailbox _ _ []
  · cases parked : mailbox.parked with
    | none => exact passes_requeue mailbox _ _ []
    | some flow => exact passes_unparked parked rfl rfl

theorem take_waiting_sender_passes (mailbox : Mailbox) (sender : FlowId) :
    Passes mailbox (mailbox.takeWaitingSender sender).1 [] (mailbox.takeWaitingSender sender).2.toList := by
  unfold takeWaitingSender
  cases found : mailbox.waitingSenders.findIdx? (·.flow.id = sender) with
  | none => exact passes_requeue mailbox _ _ []
  | some position =>
    obtain ⟨inside, _⟩ := findIdx?_eq_some_iff_getElem.mp found
    have moved := (getElem_cons_eraseIdx_perm inside).map (·.flow.id)
    refine ⟨?_, fun _ => id⟩
    dsimp only
    rw [getElem?_eq_getElem inside]
    simp only [held, boxes, FlowBox.ids, map_append, map_map, Option.map_some, Option.toList_some, map_cons,
      map_nil, nil_append, singleton_append]
    exact (List.Perm.append_left _ moved.symm).trans perm_middle

theorem close_passes (mailbox : Mailbox) : Passes mailbox mailbox.close.1 [] mailbox.close.2 := by
  refine ⟨?_, fun _ => id⟩
  simp only [close, held, boxes, FlowBox.ids, map_append, map_nil, nil_append, append_nil]
  exact perm_append_comm

-- park_filter is the one function that parks, and it overwrites whoever is
-- parked already.
theorem park_filter_held (layout : Layout) (free : mailbox.parked = none) (flow : FlowBox) (filter : WaitFilter) :
    flow.id :: mailbox.held =
      FlowBox.ids (unparked (mailbox.parkFilter layout flow filter).2) ++ (mailbox.parkFilter layout flow filter).1.held := by
  unfold parkFilter
  rcases mailbox.queue.take layout filter with ⟨queue, hop⟩
  cases hop with
  | some hop => rfl
  | none =>
    change flow.id :: mailbox.held = held { mailbox with waitEpoch := _, parkedFilter := filter, parked := some flow }
    rw [held, held, boxes, boxes, free]
    rfl

theorem park_filter_parked {flow other : FlowBox} {filter : WaitFilter}
    (parked : (mailbox.parkFilter layout flow filter).1.parked = some other) : mailbox.parked = some other ∨ other = flow := by
  unfold parkFilter at parked
  cases taken : mailbox.queue.take layout filter with
  | mk queue hop =>
    rw [taken] at parked
    cases hop with
    | some hop => exact Or.inl parked
    | none => exact Or.inr (Option.some.inj parked).symm

end Custody

end Mailbox

end Byteflow
