import Byteflow.LocalQueue
import Byteflow.MailboxCustody
import Byteflow.MailboxRace

namespace Byteflow

open List Function

def INJECTOR_BATCH : Nat := 32

-- What the thread that holds the box of a flow does next with it. worker is
-- the worker on whose deque the flow goes, none the injector.
inductive HandPoint where
  | starting (worker : Nat)
  | running (worker : Nat)
  | deliverLookup (worker : Nat) (target : FlowId) (hop : Hop) (pending : PendingSend)
  | deliverPush (worker : Nat) (target : FlowId) (hop : Hop) (pending : PendingSend)
  | sendLookup (worker : Nat) (target : FlowId) (hop : Hop) (pending : PendingSend)
  | sendPark (worker : Nat) (target : FlowId) (hop : Hop) (pending : PendingSend)
  | receivePop (worker : Nat) (filter : WaitFilter)
  | admitting (worker : Nat)
  | askPop (worker : Nat) (filter : WaitFilter)
  | askIndex (filter : WaitFilter)
  | parking (filter : WaitFilter)
  | resuming (worker : Option Nat)
  | queueing (worker : Option Nat)
  | closing
  | unregistering
  | completing

structure Held where
  flow : FlowBox
  point : HandPoint

-- What the slice of a running flow ended with. finish is every way to
-- finalize_flow: Complete, Trap, an exhausted quota, a refused capability, a
-- failed resume_with. served is an effect answered on the spot.
inductive Demand where
  | finish
  | served
  | yield (spill : Bool)
  | sleep
  | send (target : FlowId) (hop : Hop)
  | receive (dest : UInt8) (filter : WaitFilter)
  | ask (target : FlowId) (hop : Hop) (dest : UInt8) (requestId : UInt64) (timeout : Option Nat)

-- Every container of boxes. hands are the steps in progress that hold one.
structure Custody where
  config : MailboxConfig
  workers : Nat
  injector : List FlowBox
  deques : Nat → List FlowBox
  wheel : List FlowBox
  mailboxes : FlowId → Mailbox
  registered : FlowId → Bool
  hands : List Held
  finalized : List FlowId
  spawned : List FlowId

-- The tables that hold no boxes (kill signals, the ask and send indexes, links,
-- monitors, quotas) are left open: a step that depends on one takes its answer
-- from the event, and the steps that finalize_one, request_kill and the timer
-- make on a flow they do not hold may come at any time.
inductive CustodyEvent where
  | spawn (id : FlowId)
  | popLocal (worker : Nat)
  | steal (worker victim : Nat)
  | takeInjector (worker : Nat)
  | run (index : Nat) (demand : Demand)
  | step (index : Nat) (ok : Bool)
  | due (index : Nat)
  | hostPush (target : FlowId) (hop : Hop)
  | systemPush (owner : FlowId) (hop : Hop)
  | takeParked (owner : FlowId) (kill : Bool)
  | takeParkedAt (owner : FlowId) (epoch : UInt64) (armed : Bool)
  | takeWaitingSender (target sender : FlowId)

namespace Custody

variable (layout : Layout)

def initial (config : MailboxConfig) (workers : Nat) : Custody :=
  { config := config, workers := workers, injector := [], deques := fun _ => [], wheel := []
    mailboxes := fun _ => .withConfig config, registered := fun _ => false, hands := [], finalized := [], spawned := [] }

def setMailbox (state : Custody) (owner : FlowId) (mailbox : Mailbox) : Custody :=
  { state with mailboxes := update state.mailboxes owner mailbox }

def setDeque (state : Custody) (worker : Nat) (deque : List FlowBox) : Custody :=
  { state with deques := update state.deques worker deque }

def afterSend (worker : Nat) : PendingSend → HandPoint
  | .fireAndForget => .running worker
  | .ask _ requestId sender _ => .askPop worker (.correlation requestId (some sender))

-- enqueue_flow and enqueue_local: a full ring spills to the injector.
def enqueue (state : Custody) (flow : FlowBox) : Option Nat → Custody
  | none => { state with injector := state.injector ++ [flow] }
  | some worker =>
    if worker < state.workers ∧ (state.deques worker).length < LOCAL_CAP then
      state.setDeque worker (state.deques worker ++ [flow])
    else { state with injector := state.injector ++ [flow] }

def admitted (worker : Nat) : AdmitSender → List Held
  | .idle => []
  | .undeliverable sender => [⟨sender, .closing⟩]
  | .woken sender =>
    let taken := { sender with pendingSend := none }
    match sender.pendingSend with
    | some (.ask _ requestId expectSender _) => [⟨taken, .askIndex (.correlation requestId (some expectSender))⟩]
    | _ => [⟨taken, .queueing (some worker)⟩]

-- The next step of a thread with the box it holds, taken out of hands, and the
-- boxes that are held afterwards. A mailbox exists once its flow was spawned.
def advance (state : Custody) (flow : FlowBox) (ok : Bool) : HandPoint → Option (Custody × List Held)
  | .starting worker =>
    let taken := { flow with pendingMessage := none }
    some (state, [⟨taken, if ok then .running worker else .closing⟩])
  | .running _ => none
  | .deliverLookup worker target hop pending =>
    some (state, [⟨flow, if state.registered target then .deliverPush worker target hop pending else .closing⟩])
  | .deliverPush worker target hop pending =>
    if target ∉ state.spawned then none
    else
      let (mailbox, outcome) := (state.mailboxes target).push layout hop
      let after := state.setMailbox target mailbox
      match outcome with
      | .ok (.handoff receiver) =>
        some (after, [⟨receiver, .resuming (some worker)⟩, ⟨flow, afterSend worker pending⟩])
      | .ok .droppedNewest =>
        match pending with
        | .fireAndForget => some (after, [⟨flow, .running worker⟩])
        | .ask .. => some (after, [⟨flow, .closing⟩])
      | .ok .queued | .ok .queuedDropOldest => some (after, [⟨flow, afterSend worker pending⟩])
      | .error .closed => some (after, [⟨flow, .closing⟩])
      | .error .messageLimit | .error .byteLimit => some (after, [⟨flow, .sendLookup worker target hop pending⟩])
  | .sendLookup worker target hop pending =>
    let waiting := { flow with pendingSend := some pending }
    some (state, [⟨waiting, if state.registered target then .sendPark worker target hop pending else .closing⟩])
  | .sendPark worker target hop pending =>
    if target ∉ state.spawned then none
    else
      let (mailbox, outcome) := (state.mailboxes target).parkSender layout flow hop
      let after := state.setMailbox target mailbox
      match outcome with
      | .parked => some (after, [])
      | .delivered returned => some (after, [⟨{ returned with pendingSend := none }, afterSend worker pending⟩])
      | .closed returned | .waitersFull returned | .undeliverable returned => some (after, [⟨returned, .closing⟩])
  | .receivePop worker filter =>
    if flow.id ∉ state.spawned then none
    else
      match (state.mailboxes flow.id).tryPopFilter layout filter with
      | (mailbox, some _) => some (state.setMailbox flow.id mailbox, [⟨flow, if ok then .admitting worker else .closing⟩])
      | (mailbox, none) => some (state.setMailbox flow.id mailbox, [⟨flow, .parking filter⟩])
  | .admitting worker =>
    if flow.id ∉ state.spawned then none
    else
      let (mailbox, outcome) := (state.mailboxes flow.id).admitWaitingSender layout
      some (state.setMailbox flow.id mailbox, admitted worker outcome ++ [⟨flow, .running worker⟩])
  | .askPop worker filter =>
    if flow.id ∉ state.spawned then none
    else
      match (state.mailboxes flow.id).tryPopFilter layout filter with
      | (mailbox, some _) => some (state.setMailbox flow.id mailbox, [⟨flow, if ok then .running worker else .closing⟩])
      | (mailbox, none) => some (state.setMailbox flow.id mailbox, [⟨flow, .askIndex filter⟩])
  | .askIndex filter => some (state, [⟨flow, if ok then .parking filter else .closing⟩])
  | .parking filter =>
    if flow.id ∉ state.spawned then none
    else
      match (state.mailboxes flow.id).parkFilter layout flow filter with
      | (mailbox, .ok _) => some (state.setMailbox flow.id mailbox, [])
      | (mailbox, .error returned) => some (state.setMailbox flow.id mailbox, [⟨returned, .resuming none⟩])
  | .resuming worker =>
    let taken := { flow with pendingMessage := none }
    some (state, [⟨taken, if ok then .queueing worker else .closing⟩])
  | .queueing worker => some (state.enqueue flow worker, [])
  | .closing =>
    if flow.id = 0 then some (state, [])
    else if state.registered flow.id = false then some (state, [⟨flow, .unregistering⟩])
    else if flow.id ∉ state.spawned then none
    else
      let (mailbox, senders) := (state.mailboxes flow.id).close
      some (state.setMailbox flow.id mailbox, senders.map (⟨·, .closing⟩) ++ [⟨flow, .unregistering⟩])
  | .unregistering =>
    some ({ state with registered := update state.registered flow.id false }, [⟨flow, .completing⟩])
  | .completing => some ({ state with finalized := flow.id :: state.finalized }, [])

def meet (state : Custody) (flow : FlowBox) (worker : Nat) : Demand → Custody × List Held
  | .finish => (state, [⟨flow, .closing⟩])
  | .served => (state, [⟨flow, .running worker⟩])
  | .yield spill => (state, [⟨flow, .queueing (if spill then none else some worker)⟩])
  | .sleep => ({ state with wheel := state.wheel ++ [flow] }, [])
  | .send target hop => (state, [⟨flow, .deliverLookup worker target hop .fireAndForget⟩])
  | .receive dest filter => (state, [⟨{ flow with lastReceiveDest := some dest }, .receivePop worker filter⟩])
  | .ask target hop dest requestId timeout =>
    (state, [⟨{ flow with lastReceiveDest := some dest },
      .deliverLookup worker target hop (.ask dest requestId target timeout)⟩])

def without (state : Custody) (index : Nat) : Custody := { state with hands := state.hands.eraseIdx index }

def hold (state : Custody) (held : List Held) : Custody := { state with hands := state.hands ++ held }

def taking (state : Custody) (owner : FlowId) (result : Mailbox × Option FlowBox) (point : HandPoint) : Custody :=
  (state.setMailbox owner result.1).hold (result.2.toList.map (⟨·, point⟩))

def next (state : Custody) : CustodyEvent → Option Custody
  | .spawn id =>
    -- try_next_flow_id gives out each id once and never that of the host.
    if id = 0 ∨ id ∈ state.spawned then none
    else some { state with
      mailboxes := update state.mailboxes id (.withConfig state.config)
      registered := update state.registered id true
      hands := state.hands ++ [⟨{ id := id }, .queueing none⟩]
      spawned := id :: state.spawned }
  | .popLocal worker =>
    -- The owner pops at the bottom of its ring.
    if worker < state.workers then
      (state.deques worker).getLast?.map fun flow =>
        (state.setDeque worker (state.deques worker).dropLast).hold [⟨flow, .starting worker⟩]
    else none
  | .steal worker victim =>
    if victim < state.workers then
      match state.deques victim with
      | [] => none
      | flow :: rest => some ((state.setDeque victim rest).hold [⟨flow, .starting worker⟩])
    else none
  | .takeInjector worker =>
    match state.injector.take INJECTOR_BATCH with
    | [] => none
    | first :: batch =>
      some ({ state with injector := state.injector.drop INJECTOR_BATCH }.hold
        (⟨first, .starting worker⟩ :: batch.map (⟨·, .queueing (some worker)⟩)))
  | .run index demand =>
    match state.hands[index]? with
    | some ⟨flow, .running worker⟩ =>
      let (after, held) := (state.without index).meet flow worker demand
      some (after.hold held)
    | _ => none
  | .step index ok =>
    match state.hands[index]? with
    | none => none
    | some ⟨flow, point⟩ =>
      match (state.without index).advance layout flow ok point with
      | none => none
      | some (after, held) => some (after.hold held)
  | .due index =>
    match state.wheel[index]? with
    | none => none
    | some flow => some ({ state with wheel := state.wheel.eraseIdx index }.hold [⟨flow, .queueing none⟩])
  | .hostPush target hop =>
    if target ∉ state.spawned then none
    else
      let (mailbox, outcome) := (state.mailboxes target).push layout hop
      some ((state.setMailbox target mailbox).hold ((Mailbox.pushed outcome).map (⟨·, .resuming none⟩)))
  | .systemPush owner hop =>
    if owner ∉ state.spawned then none
    else
      let (mailbox, delivery) := (state.mailboxes owner).pushSystem layout hop
      some ((state.setMailbox owner mailbox).hold (delivery.boxes.map (⟨·, .resuming none⟩)))
  | .takeParked owner kill =>
    if owner ∉ state.spawned then none
    else some (state.taking owner (state.mailboxes owner).takeParked (if kill then .closing else .resuming none))
  | .takeParkedAt owner epoch armed =>
    if owner ∉ state.spawned then none
    else some (state.taking owner ((state.mailboxes owner).takeParkedAt epoch) (if armed then .resuming none else .closing))
  | .takeWaitingSender target sender =>
    if target ∉ state.spawned then none
    else some (state.taking target ((state.mailboxes target).takeWaitingSender sender) .closing)

def whereabouts (state : Custody) : List FlowId :=
  FlowBox.ids state.injector ++ Tally.family (List.range state.workers) (fun worker => FlowBox.ids (state.deques worker)) ++
    FlowBox.ids state.wheel ++ Tally.family state.spawned (fun owner => (state.mailboxes owner).held) ++
    state.hands.map (·.flow.id) ++ state.finalized

def tally (state : Custody) (id : FlowId) : Nat := state.whereabouts.count id

structure Sound (state : Custody) : Prop where
  distinct : state.spawned.Nodup
  host : 0 ∉ state.spawned
  own : ∀ owner flow, (state.mailboxes owner).parked = some flow → flow.id = owner
  balance : ∀ id, state.tally id = state.spawned.count id

section Tallies

variable {state after : Custody} {flow : FlowBox} {owner : FlowId} {held : List Held} {mailbox : Mailbox} {index : Nat}
  {point : HandPoint}

theorem tally_eq (state : Custody) (id : FlowId) :
    state.tally id = (FlowBox.ids state.injector).count id +
      (Tally.family (List.range state.workers) (fun worker => FlowBox.ids (state.deques worker))).count id +
      (FlowBox.ids state.wheel).count id +
      (Tally.family state.spawned (fun owner => (state.mailboxes owner).held)).count id +
      (state.hands.map (·.flow.id)).count id + state.finalized.count id := by
  simp only [tally, whereabouts, count_append]

theorem tally_hold (state : Custody) (held : List Held) (id : FlowId) :
    (state.hold held).tally id = state.tally id + (held.map (·.flow.id)).count id := by
  simp only [tally_eq, hold, map_append, count_append]
  omega

theorem tally_taken {held : Held} (found : state.hands[index]? = some held) (id : FlowId) :
    (state.without index).tally id + [held.flow.id].count id = state.tally id := by
  have erased := Tally.count_eraseIdx found (·.flow.id) id
  simp only [tally_eq, without]
  omega

theorem tally_mailbox (distinct : state.spawned.Nodup) (member : owner ∈ state.spawned) {given taken : List FlowBox}
    (kept : (FlowBox.ids given ++ (state.mailboxes owner).held).Perm (FlowBox.ids taken ++ mailbox.held)) (id : FlowId) :
    (state.setMailbox owner mailbox).tally id + (FlowBox.ids taken).count id =
      state.tally id + (FlowBox.ids given).count id := by
  have moved := kept.count_eq id
  rw [count_append, count_append] at moved
  have exchanged := Tally.count_family_update distinct member (fun other => (state.mailboxes other).held) mailbox.held id
  have same : (fun other => ((state.setMailbox owner mailbox).mailboxes other).held) =
      update (fun other => (state.mailboxes other).held) owner mailbox.held := comp_update Mailbox.held _ _ _
  rw [tally_eq, tally_eq, same]
  dsimp only [setMailbox]
  omega

theorem tally_deque {worker : Nat} (inside : worker < state.workers) (deque : List FlowBox) (id : FlowId) :
    (state.setDeque worker deque).tally id + (FlowBox.ids (state.deques worker)).count id =
      state.tally id + (FlowBox.ids deque).count id := by
  have exchanged := Tally.count_family_update nodup_range (mem_range.mpr inside)
    (fun other => FlowBox.ids (state.deques other)) (FlowBox.ids deque) id
  have same : (fun other => FlowBox.ids ((state.setDeque worker deque).deques other)) =
      update (fun other => FlowBox.ids (state.deques other)) worker (FlowBox.ids deque) := comp_update FlowBox.ids _ _ _
  rw [tally_eq, tally_eq, same]
  dsimp only [setDeque]
  omega

theorem tally_enqueue (state : Custody) (flow : FlowBox) (worker : Option Nat) (id : FlowId) :
    (state.enqueue flow worker).tally id = state.tally id + [flow.id].count id := by
  have spilled : tally { state with injector := state.injector ++ [flow] } id = state.tally id + [flow.id].count id := by
    simp only [tally_eq, FlowBox.ids, map_append, count_append, map_cons, map_nil]
    omega
  cases worker with
  | none => exact spilled
  | some worker =>
    rw [enqueue]
    split
    · rename_i room
      have pushed := tally_deque room.1 (state.deques worker ++ [flow]) id
      simp only [FlowBox.ids, map_append, count_append, map_cons, map_nil] at pushed
      omega
    · exact spilled

theorem enqueue_frame (state : Custody) (flow : FlowBox) (worker : Option Nat) :
    (state.enqueue flow worker).spawned = state.spawned ∧ (state.enqueue flow worker).mailboxes = state.mailboxes := by
  cases worker with
  | none => exact ⟨rfl, rfl⟩
  | some worker =>
    rw [enqueue]
    split <;> exact ⟨rfl, rfl⟩

theorem own_mailbox (own : ∀ other flow, (state.mailboxes other).parked = some flow → flow.id = other)
    (parked : ∀ flow, mailbox.parked = some flow → flow.id = owner) :
    ∀ other flow, ((state.setMailbox owner mailbox).mailboxes other).parked = some flow → flow.id = other := by
  intro other flow there
  by_cases here : other = owner
  · subst here
    simp only [setMailbox, update_self] at there
    exact parked flow there
  · simp only [setMailbox, update_of_ne here] at there
    exact own other flow there

-- A step that was given some flows: each is held by the step, or is where the
-- state after it says.
structure Conserves (state : Custody) (given : List FlowId) (after : Custody) (held : List Held) : Prop where
  spawned : after.spawned = state.spawned
  own : ∀ owner flow, (after.mailboxes owner).parked = some flow → flow.id = owner
  balance : ∀ id, after.tally id + (held.map (·.flow.id)).count id = state.tally id + given.count id

theorem conserves_mailbox (distinct : state.spawned.Nodup)
    (own : ∀ owner flow, (state.mailboxes owner).parked = some flow → flow.id = owner)
    (member : owner ∈ state.spawned) {given taken : List FlowBox}
    (passes : (state.mailboxes owner).Passes mailbox given taken) {others : List FlowId}
    (ids : held.map (·.flow.id) = FlowBox.ids taken ++ others) :
    Conserves state (FlowBox.ids given ++ others) (state.setMailbox owner mailbox) held := by
  refine ⟨rfl, own_mailbox own fun flow there => own owner flow (passes.parked flow there), fun id => ?_⟩
  have balance := tally_mailbox distinct member passes.kept id
  rw [ids, count_append, count_append]
  omega

theorem conserves_kept (own : ∀ owner flow, (state.mailboxes owner).parked = some flow → flow.id = owner)
    {given : List FlowId} (ids : held.map (·.flow.id) = given) : Conserves state given state held :=
  ⟨rfl, own, fun id => by rw [ids]⟩

theorem admitted_ids (worker : Nat) (outcome : AdmitSender) :
    (admitted worker outcome).map (·.flow.id) = FlowBox.ids outcome.boxes := by
  cases outcome with
  | idle | undeliverable => rfl
  | woken sender =>
    simp only [admitted]
    split <;> rfl

theorem advance_conserves {layout : Layout} {ok : Bool}
    (distinct : state.spawned.Nodup) (own : ∀ owner flow, (state.mailboxes owner).parked = some flow → flow.id = owner)
    (free : (state.mailboxes flow.id).parked = none) (nonhost : flow.id ≠ 0)
    (taken : state.advance layout flow ok point = some (after, held)) : Conserves state [flow.id] after held := by
  cases point with
  | starting | deliverLookup | sendLookup | askIndex | resuming =>
    cases taken
    exact conserves_kept own rfl
  | running worker => cases taken
  | deliverPush worker target hop pending =>
    rw [advance, Option.ite_none_left_eq_some, not_not] at taken
    obtain ⟨member, moved⟩ := taken
    have passes := Mailbox.push_passes layout (state.mailboxes target) hop
    cases pushed : (state.mailboxes target).push layout hop with
    | mk mailbox outcome =>
      rw [pushed] at moved passes
      have keeps : ∀ {held : List Held}, held.map (·.flow.id) = FlowBox.ids (Mailbox.pushed outcome) ++ [flow.id] →
          Conserves state [flow.id] (state.setMailbox target mailbox) held :=
        fun ids => conserves_mailbox distinct own member passes ids
      cases outcome with
      | error reason => cases reason <;> cases moved <;> exact keeps rfl
      | ok delivery =>
        cases delivery with
        | queued | queuedDropOldest | handoff receiver =>
          cases moved
          exact keeps rfl
        | droppedNewest => cases pending <;> cases moved <;> exact keeps rfl
  | sendPark worker target hop pending =>
    rw [advance, Option.ite_none_left_eq_some, not_not] at taken
    obtain ⟨member, moved⟩ := taken
    have passes := Mailbox.park_sender_passes layout (state.mailboxes target) flow hop
    cases parked : (state.mailboxes target).parkSender layout flow hop with
    | mk mailbox outcome =>
      rw [parked] at moved passes
      have keeps : ∀ {held : List Held}, held.map (·.flow.id) = FlowBox.ids outcome.boxes ++ [] →
          Conserves state [flow.id] (state.setMailbox target mailbox) held :=
        fun ids => conserves_mailbox distinct own member passes ids
      cases outcome <;> cases moved <;> exact keeps rfl
  | receivePop worker filter | askPop worker filter =>
    rw [advance, Option.ite_none_left_eq_some, not_not] at taken
    obtain ⟨member, moved⟩ := taken
    have passes := Mailbox.try_pop_filter_passes layout (state.mailboxes flow.id) filter
    cases popped : (state.mailboxes flow.id).tryPopFilter layout filter with
    | mk mailbox hop =>
      rw [popped] at moved passes
      have keeps : ∀ {held : List Held}, held.map (·.flow.id) = FlowBox.ids [] ++ [flow.id] →
          Conserves state [flow.id] (state.setMailbox flow.id mailbox) held :=
        fun ids => conserves_mailbox distinct own member passes ids
      cases hop <;> cases moved <;> exact keeps rfl
  | admitting worker =>
    rw [advance, Option.ite_none_left_eq_some, not_not] at taken
    obtain ⟨member, moved⟩ := taken
    cases moved
    refine conserves_mailbox distinct own member (Mailbox.admit_waiting_sender_passes layout _) ?_
    rw [map_append, admitted_ids]
    rfl
  | parking filter =>
    rw [advance, Option.ite_none_left_eq_some, not_not] at taken
    obtain ⟨member, moved⟩ := taken
    have kept := Mailbox.park_filter_held layout free flow filter
    have parks : ∀ other, ((state.mailboxes flow.id).parkFilter layout flow filter).1.parked = some other →
        other.id = flow.id := by
      intro other there
      rcases Mailbox.park_filter_parked there with old | rfl
      · exact own flow.id other old
      · rfl
    cases parked : (state.mailboxes flow.id).parkFilter layout flow filter with
    | mk mailbox outcome =>
      rw [parked] at moved kept parks
      have keeps : ∀ {held : List Held}, held.map (·.flow.id) = FlowBox.ids (Mailbox.unparked outcome) →
          Conserves state [flow.id] (state.setMailbox flow.id mailbox) held := by
        intro held ids
        refine ⟨rfl, own_mailbox own parks, fun id => ?_⟩
        have given : (FlowBox.ids [flow] ++ (state.mailboxes flow.id).held).Perm
            (FlowBox.ids (Mailbox.unparked outcome) ++ mailbox.held) := List.Perm.of_eq kept
        rw [ids]
        exact tally_mailbox distinct member given id
      cases outcome <;> cases moved <;> exact keeps rfl
  | queueing worker =>
    cases taken
    exact ⟨(enqueue_frame state flow worker).1, (enqueue_frame state flow worker).2 ▸ own,
      fun id => tally_enqueue state flow worker id⟩
  | closing =>
    rw [advance, if_neg nonhost] at taken
    by_cases gone : state.registered flow.id = false
    · rw [if_pos gone] at taken
      cases taken
      exact conserves_kept own rfl
    · rw [if_neg gone, Option.ite_none_left_eq_some, not_not] at taken
      obtain ⟨member, moved⟩ := taken
      cases moved
      refine conserves_mailbox distinct own member (Mailbox.close_passes _) ?_
      simp only [Mailbox.close, FlowBox.ids, map_append, map_map, map_cons, map_nil]
      rfl
  | unregistering =>
    cases taken
    exact ⟨rfl, own, fun id => rfl⟩
  | completing =>
    cases taken
    refine ⟨rfl, own, fun id => ?_⟩
    simp only [tally_eq, map_nil, count_nil, count_cons]
    omega

theorem meet_conserves (state : Custody) (own : ∀ owner flow, (state.mailboxes owner).parked = some flow → flow.id = owner)
    (flow : FlowBox) (worker : Nat) (demand : Demand) :
    Conserves state [flow.id] (state.meet flow worker demand).1 (state.meet flow worker demand).2 := by
  cases demand with
  | finish | served | yield | send | receive | ask => exact conserves_kept own rfl
  | sleep =>
    refine ⟨rfl, own, fun id => ?_⟩
    simp only [meet, tally_eq, FlowBox.ids, map_append, count_append, map_cons, map_nil, count_nil]
    omega

theorem sound_conserves (sound : Sound state) (conserves : Conserves state [] after held) : Sound (after.hold held) := by
  refine ⟨conserves.spawned ▸ sound.distinct, conserves.spawned ▸ sound.host, conserves.own, fun id => ?_⟩
  have balance := conserves.balance id
  rw [tally_hold, balance]
  change state.tally id + 0 = after.spawned.count id
  rw [conserves.spawned, sound.balance id]
  rfl

theorem spawned_of_tally (sound : Sound state) {id : FlowId} (somewhere : 0 < state.tally id) :
    id ∈ state.spawned ∧ state.tally id = 1 := by
  rw [sound.balance id] at somewhere ⊢
  have member := count_pos_iff.mp somewhere
  exact ⟨member, count_eq_one_of_mem sound.distinct member⟩

theorem held_elsewhere (sound : Sound state) {held : Held} (found : state.hands[index]? = some held) :
    held.flow.id ∈ state.spawned ∧ (state.mailboxes held.flow.id).parked = none := by
  have inHand : 0 < (state.hands.map (·.flow.id)).count held.flow.id :=
    count_pos_iff.mpr (mem_map.mpr ⟨held, mem_of_getElem? found, rfl⟩)
  have total := tally_eq state held.flow.id
  have somewhere : 0 < state.tally held.flow.id := by omega
  obtain ⟨member, once⟩ := spawned_of_tally sound somewhere
  refine ⟨member, ?_⟩
  cases parked : (state.mailboxes held.flow.id).parked with
  | none => rfl
  | some box =>
    have same := sound.own held.flow.id box parked
    have inBox : 0 < (state.mailboxes held.flow.id).held.count held.flow.id := by
      refine count_pos_iff.mpr (mem_map.mpr ⟨box, ?_, same⟩)
      simp [Mailbox.boxes, parked]
    have counted := Tally.count_le_family member (fun owner => (state.mailboxes owner).held) held.flow.id
    omega

theorem sound_step (sound : Sound state) {flow : FlowBox}
    (found : state.hands[index]? = some ⟨flow, point⟩)
    (conserves : Conserves (state.without index) [flow.id] after held) :
    Sound (after.hold held) := by
  refine sound_conserves sound ⟨conserves.spawned, conserves.own, fun id => ?_⟩
  have balance := conserves.balance id
  have erased := tally_taken found id
  change _ = state.tally id + 0
  rw [balance]
  exact erased

theorem held_ids (boxes : List FlowBox) (point : HandPoint) :
    (boxes.map fun box => (⟨box, point⟩ : Held)).map (·.flow.id) = FlowBox.ids boxes := by
  simp [FlowBox.ids]

theorem sound_given_back (sound : Sound state) {boxes : List FlowBox}
    (passes : (state.mailboxes owner).Passes mailbox [] boxes)
    (taken : (if owner ∉ state.spawned then none
      else some ((state.setMailbox owner mailbox).hold (boxes.map fun box => ⟨box, point⟩))) = some after) : Sound after := by
  rw [Option.ite_none_left_eq_some, not_not] at taken
  obtain ⟨member, ⟨⟩⟩ := taken
  have ids : (boxes.map fun box => (⟨box, point⟩ : Held)).map (·.flow.id) = FlowBox.ids boxes ++ [] := by
    rw [held_ids, append_nil]
  exact sound_conserves sound (conserves_mailbox sound.distinct sound.own member passes ids)

theorem sound_spawn (sound : Sound state) {id : FlowId} (nonhost : id ≠ 0) (fresh : id ∉ state.spawned) :
    Sound { state with
      mailboxes := update state.mailboxes id (.withConfig state.config)
      registered := update state.registered id true
      hands := state.hands ++ [⟨{ id := id }, .queueing none⟩]
      spawned := id :: state.spawned } := by
  refine ⟨nodup_cons.mpr ⟨fresh, sound.distinct⟩, fun host => ?_, own_mailbox sound.own fun flow there => ?_,
    fun token => ?_⟩
  · rcases mem_cons.mp host with zero | old
    · exact nonhost zero.symm
    · exact sound.host old
  · cases there
  · have balance := sound.balance token
    have boxes : Tally.family (id :: state.spawned)
        (fun owner => (update state.mailboxes id (.withConfig state.config) owner).held) =
        Tally.family state.spawned (fun owner => (state.mailboxes owner).held) := by
      have empty : (Mailbox.withConfig state.config).held = [] := rfl
      simp only [Tally.family, flatMap_cons, update_self, empty, nil_append]
      refine Tally.family_congr fun owner member => ?_
      have different : owner ≠ id := by
        rintro rfl
        exact fresh member
      rw [update_of_ne different]
    rw [tally_eq] at balance ⊢
    rw [boxes]
    simp only [map_append, map_cons, map_nil, count_append, count_cons, count_nil]
    omega

theorem sound_next {layout : Layout} (sound : Sound state) (event : CustodyEvent)
    (taken : state.next layout event = some after) : Sound after := by
  cases event with
  | spawn id =>
    rw [next, Option.ite_none_left_eq_some, not_or] at taken
    obtain ⟨⟨nonhost, fresh⟩, same⟩ := taken
    cases same
    exact sound_spawn sound nonhost fresh
  | popLocal worker =>
    rw [next, Option.ite_none_right_eq_some] at taken
    obtain ⟨inside, popped⟩ := taken
    obtain ⟨flow, last, rfl⟩ := Option.map_eq_some_iff.mp popped
    refine sound_conserves sound ⟨rfl, sound.own, fun id => ?_⟩
    have balance := tally_deque inside (state.deques worker).dropLast id
    obtain ⟨front, whole⟩ := getLast?_eq_some_iff.mp last
    rw [whole] at balance ⊢
    simp only [FlowBox.ids, map_append, count_append, map_cons, map_nil, dropLast_concat,
      count_nil] at balance ⊢
    omega
  | steal worker victim =>
    rw [next, Option.ite_none_right_eq_some] at taken
    obtain ⟨inside, stolen⟩ := taken
    cases deque : state.deques victim with
    | nil => rw [deque] at stolen; cases stolen
    | cons flow rest =>
      rw [deque] at stolen
      cases stolen
      refine sound_conserves sound ⟨rfl, sound.own, fun id => ?_⟩
      have balance := tally_deque inside rest id
      rw [deque] at balance
      simp only [FlowBox.ids, map_cons, map_nil, count_cons, count_nil] at balance ⊢
      omega
  | takeInjector worker =>
    rw [next] at taken
    cases batch : state.injector.take INJECTOR_BATCH with
    | nil => rw [batch] at taken; cases taken
    | cons first rest =>
      rw [batch] at taken
      cases taken
      refine sound_conserves sound ⟨rfl, sound.own, fun id => ?_⟩
      have whole : (FlowBox.ids state.injector).count id =
          (FlowBox.ids (first :: rest)).count id + (FlowBox.ids (state.injector.drop INJECTOR_BATCH)).count id := by
        rw [← batch, FlowBox.ids, FlowBox.ids, FlowBox.ids, ← count_append, ← map_append, take_append_drop]
      rw [map_cons, held_ids, tally_eq, tally_eq]
      simp only [FlowBox.ids, map_cons, count_cons, count_nil] at whole ⊢
      omega
  | run index demand =>
    rw [next] at taken
    split at taken
    · rename_i flow worker found
      cases taken
      exact sound_step sound found (meet_conserves (state.without index) sound.own flow worker demand)
    · cases taken
  | step index ok =>
    rw [next] at taken
    split at taken
    · cases taken
    rename_i flow point found
    split at taken
    · cases taken
    rename_i middle held advanced
    cases taken
    obtain ⟨member, free⟩ := held_elsewhere sound found
    have nonhost : flow.id ≠ 0 := fun zero => sound.host (zero ▸ member)
    exact sound_step sound found (advance_conserves sound.distinct sound.own free nonhost advanced)
  | due index =>
    rw [next] at taken
    split at taken
    · cases taken
    rename_i flow found
    cases taken
    refine sound_conserves sound ⟨rfl, sound.own, fun id => ?_⟩
    have erased : (FlowBox.ids (state.wheel.eraseIdx index)).count id + [flow.id].count id =
        (FlowBox.ids state.wheel).count id := Tally.count_eraseIdx found (·.id) id
    simp only [tally_eq, map_cons, map_nil, count_nil] at erased ⊢
    omega
  | hostPush target hop => exact sound_given_back sound (Mailbox.push_passes layout _ hop) taken
  | systemPush owner hop => exact sound_given_back sound (Mailbox.push_system_passes layout _ hop) taken
  | takeParked owner kill => exact sound_given_back sound (Mailbox.take_parked_passes _) taken
  | takeParkedAt owner epoch armed => exact sound_given_back sound (Mailbox.take_parked_at_passes _ epoch) taken
  | takeWaitingSender target sender => exact sound_given_back sound (Mailbox.take_waiting_sender_passes _ sender) taken

theorem initial_sound (config : MailboxConfig) (workers : Nat) : Sound (initial config workers) where
  distinct := nodup_nil
  host := not_mem_nil
  own _ _ there := by cases there
  balance id := by
    have idle : Tally.family (List.range workers) (fun _ => FlowBox.ids []) = [] := by
      simp [Tally.family, FlowBox.ids]
    rw [tally_eq]
    change 0 + (Tally.family (List.range workers) (fun _ => FlowBox.ids [])).count id + 0 + 0 + 0 + 0 = 0
    rw [idle]
    rfl

end Tallies

open Transition

theorem no_flow_lost_or_duplicated (config : MailboxConfig) (workers : Nat) (state : Custody)
    (reached : Reach (next layout) (fun _ _ => True) (initial config workers) state) :
    (∀ id ∈ state.spawned, state.whereabouts.count id = 1) ∧ (∀ id ∈ state.whereabouts, id ∈ state.spawned) ∧
      ∀ owner flow, (state.mailboxes owner).parked = some flow → flow.id = owner := by
  have sound : Sound state :=
    reach_invariant (initial_sound config workers) (fun _ event _ holds _ taken => sound_next holds event taken) reached
  refine ⟨fun id member => ?_, fun id somewhere => ?_, sound.own⟩
  · have balance := sound.balance id
    rwa [count_eq_one_of_mem sound.distinct member] at balance
  · exact (spawned_of_tally sound (count_pos_iff.mpr somewhere)).1

open MailboxRace (ping)

def handoffEvents : List CustodyEvent :=
  [.spawn 1, .spawn 2, .step 0 true, .step 0 true, .takeInjector 0, .step 1 true, .step 0 true, .run 0 (.receive 3 .any),
    .step 0 true, .step 0 true, .popLocal 0, .step 0 true, .run 0 (.send 1 ⟨.message ping, 0⟩), .step 0 true,
    .step 0 true, .run 1 .finish, .step 1 true, .step 1 true, .step 1 true]

def afterHandoff : Custody := (play (next .word) (initial .DEFAULT 1) handoffEvents).getD (initial .DEFAULT 1)

theorem handoff_keeps_flows : play (next .word) (initial .DEFAULT 1) handoffEvents = some afterHandoff ∧
    afterHandoff.spawned = [2, 1] ∧ afterHandoff.finalized = [2] ∧ afterHandoff.whereabouts.count 1 = 1 := by
  have played : play (next .word) (initial .DEFAULT 1) handoffEvents = some afterHandoff := rfl
  have reached := reach_of_play handoffEvents (initial .DEFAULT 1)
    (all_meet_of_forall (fun _ _ => trivial) handoffEvents _) played
  obtain ⟨once, _, _⟩ := no_flow_lost_or_duplicated .word .DEFAULT 1 afterHandoff reached
  have spawned : afterHandoff.spawned = [2, 1] := rfl
  exact ⟨played, spawned, rfl, once 1 (by rw [spawned]; decide)⟩

end Custody

end Byteflow
