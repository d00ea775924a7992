import Byteflow.AskTarget
import Byteflow.HopAuth
import Byteflow.MailboxRace

namespace Byteflow

open Option MailboxQueue List

def Message.down (monitor targetFlow reason : UInt64) : Message :=
  new targetFlow monitor TAG_SYS_DOWN (.int reason.toInt64)

-- How a hop comes to a mailbox: a Send or Ask of a flow, Runtime::send or a
-- HostAwait completion, deliver_frame, and the two notices of a death.
inductive Origin where
  | flow (sender : FlowId) (reply : CapId)
  | host
  | remote
  | down (monitor : UInt64) (dead : FlowId) (reason : FlowExitReason)
  | exit (dead : FlowId) (reason : FlowExitReason)
deriving DecidableEq

-- The envelope that is delivered. A remote frame keeps its own.
def Origin.stamp : Origin → Message → Message
  | .flow sender reply, message => message.authenticate sender reply
  | .host, message => message.authenticate 0 CapId.NONE
  | .remote, message => message
  | .down monitor dead reason, _ => Message.down monitor dead reason.asU64
  | .exit dead reason, _ => Message.linkedExit dead reason.asU64

def Origin.isSystem : Origin → Bool
  | .down .. | .exit .. => true
  | .flow .. | .host | .remote => false

structure Arrival where
  origin : Origin
  target : FlowId
  message : Message

def Arrival.From (arrival : Arrival) (target : FlowId) (requestId : UInt64) : Prop :=
  ((∃ reply, arrival.origin = .flow target reply) ∧ arrival.message.requestId = requestId) ∨
    (∃ monitor reason, arrival.origin = .down monitor target reason) ∨ ∃ reason, arrival.origin = .exit target reason

inductive Reply where
  | hop (serial : Nat)
  | notice (hop : Message)
  | unit

structure Completion where
  flow : FlowId
  wait : Wait
  reply : Reply

-- The lives of the flows with the hops in their mailboxes. A hop's serial is
-- its place in arrivals; arrivals and completions are the history of the run.
structure Traffic where
  life : Lifecycle
  overflow : OverflowPolicy
  queues : FlowId → MailboxQueue
  refused : List (FlowId × Hop)
  arrivals : List Arrival
  completions : List Completion

inductive TrafficEvent where
  | life (event : LifeEvent)
  | pop (id : FlowId) (filter : WaitFilter) (ok : Bool)
  | arrive (origin : Origin) (target : FlowId) (message : Message) (filter : WaitFilter)
  | offer (index : Nat)
  | withdraw (index : Nat)

-- An Ask waits for the reply of its target; the filter of a Receive is that of
-- the event.
def Wait.filter (wait : Wait) (receive : WaitFilter) : WaitFilter :=
  match wait.target with
  | some target => .correlation wait.requestId (some target)
  | none => receive

def Completion.answeredBy (completion : Completion) (target : FlowId) (serial : Nat) : Bool :=
  completion.wait.target = some target && match completion.reply with
    | .hop own => own = serial
    | .notice _ | .unit => false

def Completion.noticedBy (completion : Completion) (target dead : FlowId) : Bool :=
  completion.wait.target = some target && match completion.reply with
    | .notice hop => hop.sender = dead
    | .hop _ | .unit => false

namespace Traffic

open Transition

variable (layout : Layout)

def initial (config : MailboxConfig) (maxAskWaits : Nat) : Traffic where
  life := .initial maxAskWaits
  overflow := config.overflow
  queues := fun _ => .new config.capacity.get config.bytes.get
  refused := []
  arrivals := []
  completions := []

def setQueue (state : Traffic) (id : FlowId) (queue : MailboxQueue) : Traffic :=
  { state with queues := Function.update state.queues id queue }

-- The steps of a life that touch no queue. What other mailboxes answer to a
-- sender is left open, and hops come by arrive whenever they come.
def apart (state : Traffic) : LifeEvent → Bool
  | .step id _ _ =>
    match state.life.places id with
    | .hand (.popping _) | .hand (.parking _) => false
    | _ => true
  | .wake _ => false
  -- No capability names the host.
  | .run _ (.ask target ..) => target ≠ 0
  | .spawn _ | .run .. | .kill .. | .task _ | .expire .. | .takeSender .. => true

def expired (state : Traffic) : LifeEvent → List Completion
  | .expire id true =>
    match state.life.places id with
    | .parked wait => [⟨id, wait, .unit⟩]
    | _ => []
  | _ => []

def keep (state : Traffic) (origin : Origin) (target : FlowId) (hop : Hop) : Traffic :=
  if origin.isSystem then state.setQueue target ((state.queues target).forcePush layout hop)
  else
    match (state.queues target).enqueue layout hop state.overflow with
    | (queue, .ok _) => state.setQueue target queue
    | (queue, .error _) =>
      match origin with
      | .flow .. => { state.setQueue target queue with refused := state.refused ++ [(target, hop)] }
      | _ => state.setQueue target queue

def wakes (state : Traffic) (origin : Origin) (target : FlowId) (message : Message) (filter : WaitFilter) : Option Wait :=
  match state.life.places target with
  | .parked wait =>
    if (origin.isSystem || (Value.message message).withinNestingLimit) && (wait.filter filter).matches (.message message)
    then some wait else none
  | _ => none

def pop (state : Traffic) (id : FlowId) (wait : Wait) (filter : WaitFilter) (ok : Bool) : Option Traffic :=
  match (state.queues id).take layout (wait.filter filter) with
  | (_, none) => (state.life.next (.step id .empty 0)).map fun life => { state with life := life }
  | (queue, some hop) =>
    if ok then
      (state.life.next (.step id .found 0)).map fun life =>
        { state.setQueue id queue with life := life, completions := ⟨id, wait, .hop hop.serial⟩ :: state.completions }
    else (state.life.next (.step id .fault 0)).map fun life => { state.setQueue id queue with life := life }

-- A flow that sends was spawned, and decode_frame refuses the sender 0.
def comes (state : Traffic) (message : Message) : Origin → Bool
  | .flow sender _ => state.life.places sender ≠ .unborn
  | .remote => message.sender ≠ 0
  | .host | .down .. | .exit .. => true

def record (state : Traffic) (arrival : Arrival) : Traffic := { state with arrivals := state.arrivals ++ [arrival] }

def next (state : Traffic) : TrafficEvent → Option Traffic
  | .life event =>
    if state.apart event then
      (state.life.next event).map fun life =>
        { state with life := life, completions := state.expired event ++ state.completions }
    else none
  | .pop id filter ok =>
    match state.life.places id with
    | .hand (.popping wait) | .hand (.parking wait) => state.pop layout id wait filter ok
    | _ => none
  | .arrive origin target message filter =>
    if state.life.opened target && state.comes message origin then
      let arrived := state.record ⟨origin, target, origin.stamp message⟩
      match state.wakes origin target (origin.stamp message) filter with
      | some wait => (state.life.next (.wake target)).map fun life =>
        { arrived with life := life, completions := ⟨target, wait, .hop state.arrivals.length⟩ :: state.completions }
      | none => some (arrived.keep layout origin target ⟨.message (origin.stamp message), state.arrivals.length⟩)
    else none
  | .offer index =>
    -- park_sender and admit_waiting_sender: the hop joins the queue, nobody is woken.
    match state.refused[index]? with
    | none => none
    | some (target, hop) =>
      match (state.queues target).tryEnqueueReject layout hop with
      | .ok queue => some { state.setQueue target queue with refused := state.refused.eraseIdx index }
      | .error _ => none
  | .withdraw index => some { state with refused := state.refused.eraseIdx index }

def replies (state : Traffic) : List Completion :=
  state.completions ++ state.life.exits.map fun write => (⟨write.flow, write.hit, .notice write.hop⟩ : Completion)

-- Remote frames come under foreign ids, Asks go to other flows, and no flow
-- parks while somebody is still at work on an earlier Ask of it.
def Separate (foreign : FlowId → Prop) (state : Traffic) : TrafficEvent → Prop
  | .life (.run _ (.ask target ..)) => ¬ foreign target
  | .life event => state.life.ParkUnclaimed event
  | .pop id .. => state.life.ParkUnclaimed (.step id .empty 0)
  | .arrive .remote _ message _ => foreign message.sender
  | .arrive .. | .offer _ | .withdraw _ => True

def Stamped (foreign : FlowId → Prop) (arrival : Arrival) : Prop :=
  match arrival.origin with
  | .flow sender _ => arrival.message.sender = sender
  | .host => arrival.message.sender = 0
  | .remote => foreign arrival.message.sender
  | .down _ dead _ | .exit dead _ => arrival.message.sender = dead

def Arrived (arrivals : List Arrival) (id : FlowId) (hop : Hop) : Prop :=
  ∃ arrival, arrivals[hop.serial]? = some arrival ∧ arrival.target = id ∧ hop.value = .message arrival.message

-- A completed Ask was answered by its target, told of its death, or timed out.
def Authentic (arrivals : List Arrival) (completion : Completion) : Prop :=
  ∀ target, completion.wait.target = some target →
    match completion.reply with
    | .hop serial => ∃ arrival, arrivals[serial]? = some arrival ∧ arrival.target = completion.flow ∧
        arrival.From target completion.wait.requestId
    | .notice hop => ∃ reason : FlowExitReason, hop = Message.linkedExit target reason.asU64
    | .unit => completion.wait.timed = true

structure Genuine (foreign : FlowId → Prop) (state : Traffic) : Prop where
  owned : state.life.Owned
  asked : ∀ id wait target, (state.life.places id).wait = some wait → wait.target = some target →
    target ≠ 0 ∧ ¬ foreign target
  stamped : ∀ arrival ∈ state.arrivals, Stamped foreign arrival
  queued : ∀ id, ∀ hop ∈ (state.queues id).hops, Arrived state.arrivals id hop
  refused : ∀ target hop, (target, hop) ∈ state.refused → Arrived state.arrivals target hop
  completed : ∀ completion ∈ state.completions, Authentic state.arrivals completion

section Steps

variable {layout : Layout} {foreign : FlowId → Prop} {state after : Traffic}
  {id target : FlowId} {event : LifeEvent} {wait : Wait} {filter : WaitFilter}

theorem from_matches {arrival : Arrival} {requestId : UInt64} (stamped : Stamped foreign arrival)
    (nonhost : target ≠ 0) (ours : ¬ foreign target)
    (matches_ : (WaitFilter.correlation requestId (some target)).matches (.message arrival.message) = true) :
    arrival.From target requestId := by
  have asked : arrival.message.requestId = requestId ∧ arrival.message.sender = target := by
    simpa [WaitFilter.matches, Value.asMessage] using matches_
  obtain ⟨request, sender⟩ := asked
  unfold Stamped at stamped
  cases origin : arrival.origin with
  | flow own reply =>
    rw [origin] at stamped
    refine Or.inl ⟨⟨reply, ?_⟩, request⟩
    rw [origin, ← stamped, sender]
  | host =>
    rw [origin] at stamped
    exact absurd (sender.symm.trans stamped) nonhost
  | remote =>
    rw [origin] at stamped
    exact absurd (sender ▸ stamped) ours
  | down monitor dead reason =>
    rw [origin] at stamped
    refine Or.inr (Or.inl ⟨monitor, reason, ?_⟩)
    rw [origin, ← stamped, sender]
  | exit dead reason =>
    rw [origin] at stamped
    refine Or.inr (Or.inr ⟨reason, ?_⟩)
    rw [origin, ← stamped, sender]

theorem stamp_stamped (origin : Origin) (target : FlowId) (message : Message)
    (remote : origin = .remote → foreign message.sender) : Stamped foreign ⟨origin, target, origin.stamp message⟩ := by
  cases origin with
  | flow sender reply | host | down monitor dead reason | exit dead reason => rfl
  | remote => exact remote rfl

theorem hop_authentic {hop : Hop}
    (stamped : ∀ arrival ∈ state.arrivals, Stamped foreign arrival) (arrived : Arrived state.arrivals id hop)
    (asked : ∀ target, wait.target = some target → target ≠ 0 ∧ ¬ foreign target)
    (matches_ : (wait.filter filter).matches hop.value = true) : Authentic state.arrivals ⟨id, wait, .hop hop.serial⟩ := by
  intro target asks
  obtain ⟨arrival, found, here, value⟩ := arrived
  obtain ⟨nonhost, ours⟩ := asked target asks
  refine ⟨arrival, found, here, from_matches (stamped arrival (mem_of_getElem? found)) nonhost ours ?_⟩
  rw [Wait.filter, show wait.target = some target from asks, value] at matches_
  exact matches_

theorem arrived_grows {arrivals : List Arrival} {hop : Hop} (arrived : Arrived arrivals id hop) (more : List Arrival) :
    Arrived (arrivals ++ more) id hop := by
  obtain ⟨arrival, found, there⟩ := arrived
  refine ⟨arrival, ?_, there⟩
  rw [List.getElem?_append_left (List.getElem?_eq_some_iff.mp found).1, found]

theorem authentic_grows {arrivals : List Arrival} {completion : Completion} (authentic : Authentic arrivals completion)
    (more : List Arrival) : Authentic (arrivals ++ more) completion := by
  obtain ⟨flow, wait, reply⟩ := completion
  intro target asks
  have before := authentic target asks
  cases reply with
  | hop serial =>
    obtain ⟨arrival, found, there⟩ := before
    refine ⟨arrival, ?_, there⟩
    rw [List.getElem?_append_left (List.getElem?_eq_some_iff.mp found).1, found]
  | notice | unit => exact before

theorem keep_frame (layout : Layout) (state : Traffic) (origin : Origin) (target : FlowId) (hop : Hop) :
    ∃ queue refused, state.keep layout origin target hop = { state.setQueue target queue with refused := refused } ∧
      (∀ other ∈ queue.hops, other ∈ (state.queues target).hops ∨ other = hop) ∧
      ∀ row ∈ refused, row ∈ state.refused ∨ row = (target, hop) := by
  have requeued : ∀ {kept after : List Hop}, kept <:+ (state.queues target).hops → after = kept ∨ after = kept ++ [hop] →
      ∀ other ∈ after, other ∈ (state.queues target).hops ∨ other = hop := by
    rintro kept after suffix (rfl | rfl) other member
    · exact Or.inl (suffix.subset member)
    · rcases mem_append.mp member with old | new
      · exact Or.inl (suffix.subset old)
      · exact Or.inr (mem_singleton.mp new)
  obtain ⟨kept, suffix, forced⟩ := force_push_hops layout (state.queues target) hop
  obtain ⟨left, front, queued⟩ := enqueue_hops layout (state.queues target) hop state.overflow
  unfold keep
  split
  · exact ⟨_, state.refused, rfl, requeued suffix forced, fun _ => Or.inl⟩
  · cases outcome : (state.queues target).enqueue layout hop state.overflow with
    | mk queue result =>
      rw [outcome] at queued
      cases result with
      | ok effect => exact ⟨queue, state.refused, rfl, requeued front queued, fun _ => Or.inl⟩
      | error reason =>
        cases origin with
        | flow sender reply =>
          refine ⟨queue, _, rfl, requeued front queued, fun row member => ?_⟩
          rcases mem_append.mp member with old | new
          · exact Or.inl old
          · exact Or.inr (mem_singleton.mp new)
        | host | remote | down | exit => exact ⟨queue, state.refused, rfl, requeued front queued, fun _ => Or.inl⟩

theorem genuine_life {life : Lifecycle} (genuine : Genuine foreign state) (unclaimed : state.life.ParkUnclaimed event)
    (asks : ∀ id target requestId dest timed, event = .run id (.ask target requestId dest timed) → target ≠ 0 ∧ ¬ foreign target)
    (stepped : state.life.next event = some life) : Genuine foreign { state with life := life } := by
  refine ⟨Lifecycle.owned_step genuine.owned event unclaimed stepped, fun id wait target isWait isTarget => ?_,
    genuine.stamped, genuine.queued, genuine.refused, genuine.completed⟩
  by_cases runs : ∃ flow effect, event = .run flow effect
  · obtain ⟨flow, effect, rfl⟩ := runs
    rcases Lifecycle.run_wait stepped isWait isTarget with old | ⟨requestId, dest, timed, rfl⟩
    · exact genuine.asked id wait target old isTarget
    · exact asks flow target requestId dest timed rfl
  · have old := Lifecycle.inherits_next (fun flow effect same => runs ⟨flow, effect, same⟩) stepped id wait isWait
    exact genuine.asked id wait target old isTarget

theorem genuine_queue (genuine : Genuine foreign state) (id : FlowId) (queue : MailboxQueue)
    (hops : ∀ hop ∈ queue.hops, Arrived state.arrivals id hop) : Genuine foreign (state.setQueue id queue) := by
  refine ⟨genuine.owned, genuine.asked, genuine.stamped, fun other hop member => ?_, genuine.refused, genuine.completed⟩
  by_cases same : other = id
  · subst same
    simp only [setQueue, Function.update_self] at member
    exact hops hop member
  · simp only [setQueue, Function.update_of_ne same] at member
    exact genuine.queued other hop member

theorem genuine_completes (genuine : Genuine foreign state) {more : List Completion}
    (authentic : ∀ completion ∈ more, Authentic state.arrivals completion) :
    Genuine foreign { state with completions := more ++ state.completions } := by
  refine ⟨genuine.owned, genuine.asked, genuine.stamped, genuine.queued, genuine.refused, fun completion member => ?_⟩
  rcases mem_append.mp member with new | old
  · exact authentic completion new
  · exact genuine.completed completion old

theorem genuine_arrives (genuine : Genuine foreign state) {arrival : Arrival} (stamped : Stamped foreign arrival) :
    Genuine foreign (state.record arrival) := by
  refine ⟨genuine.owned, genuine.asked, fun other member => ?_, fun id hop member => arrived_grows (genuine.queued id hop member) _,
    fun target hop member => arrived_grows (genuine.refused target hop member) _,
    fun completion member => authentic_grows (genuine.completed completion member) _⟩
  rcases mem_append.mp member with old | new
  · exact genuine.stamped other old
  · rw [mem_singleton.mp new]
    exact stamped

theorem genuine_pop {ok : Bool} (genuine : Genuine foreign state)
    (unclaimed : ∀ answer, state.life.ParkUnclaimed (.step id answer 0)) (isWait : (state.life.places id).wait = some wait)
    (popped : state.pop layout id wait filter ok = some after) : Genuine foreign after := by
  have moves : ∀ {base : Traffic} {answer : Answer} {life : Lifecycle}, Genuine foreign base → base.life = state.life →
      state.life.next (.step id answer 0) = some life → Genuine foreign { base with life := life } := by
    intro base answer life kept same stepped
    rw [← same] at stepped
    exact genuine_life kept (same ▸ unclaimed answer) (fun _ _ _ _ _ runs => by cases runs) stepped
  unfold pop at popped
  cases taken : (state.queues id).take layout (wait.filter filter) with
  | mk queue result =>
    rw [taken] at popped
    cases result with
    | none =>
      obtain ⟨life, stepped, rfl⟩ := map_eq_some_iff.mp popped
      exact moves genuine rfl stepped
    | some hop =>
      obtain ⟨fewer, member, matches_⟩ := take_some taken
      have shorter : Genuine foreign (state.setQueue id queue) := genuine_queue genuine id queue fun other inside =>
        genuine.queued id other (fewer.subset inside)
      dsimp only at popped
      split at popped
      · obtain ⟨life, stepped, rfl⟩ := map_eq_some_iff.mp popped
        have authentic := hop_authentic genuine.stamped (genuine.queued id hop member)
          (fun target => genuine.asked id wait target isWait) matches_
        have completed : Genuine foreign { state.setQueue id queue with
            completions := [⟨id, wait, .hop hop.serial⟩] ++ state.completions } :=
          genuine_completes shorter fun completion new => by
            rw [mem_singleton.mp new]
            exact authentic
        exact moves completed rfl stepped
      · obtain ⟨life, stepped, rfl⟩ := map_eq_some_iff.mp popped
        exact moves shorter rfl stepped

theorem wakes_some {origin : Origin} {message : Message} (woken : state.wakes origin target message filter = some wait) :
    state.life.places target = .parked wait ∧ (wait.filter filter).matches (.message message) = true := by
  unfold wakes at woken
  split at woken
  · rename_i parked
    rw [ite_none_right_eq_some] at woken
    obtain ⟨matches_, same⟩ := woken
    cases same
    exact ⟨parked, (Bool.and_eq_true_iff.mp matches_).2⟩
  · cases woken

theorem genuine_arrive {origin : Origin} {message : Message}
    (genuine : Genuine foreign state) (remote : origin = .remote → foreign message.sender)
    (arrives : state.next layout (.arrive origin target message filter) = some after) : Genuine foreign after := by
  rw [next, ite_none_right_eq_some] at arrives
  obtain ⟨_, delivered⟩ := arrives
  have recorded := genuine_arrives genuine (stamp_stamped origin target message remote)
  have arrived : Arrived (state.record ⟨origin, target, origin.stamp message⟩).arrivals target
      ⟨.message (origin.stamp message), state.arrivals.length⟩ :=
    ⟨_, List.getElem?_concat_length, rfl, rfl⟩
  cases woken : state.wakes origin target (origin.stamp message) filter with
  | some wait =>
    rw [woken] at delivered
    obtain ⟨life, stepped, rfl⟩ := map_eq_some_iff.mp delivered
    obtain ⟨parked, matches_⟩ := wakes_some woken
    have isWait : (state.life.places target).wait = some wait := by rw [parked]; rfl
    have authentic := hop_authentic recorded.stamped arrived (fun asked => genuine.asked target wait asked isWait) matches_
    have completed : Genuine foreign { state.record ⟨origin, target, origin.stamp message⟩ with
        completions := [⟨target, wait, .hop state.arrivals.length⟩] ++ state.completions } :=
      genuine_completes recorded fun completion new => by
        rw [mem_singleton.mp new]
        exact authentic
    have unclaimed : state.life.ParkUnclaimed (.wake target) := trivial
    exact genuine_life completed unclaimed (fun _ _ _ _ _ runs => by cases runs) stepped
  | none =>
    rw [woken] at delivered
    cases delivered
    obtain ⟨queue, refused, same, hops, rows⟩ := keep_frame layout (state.record ⟨origin, target, origin.stamp message⟩)
      origin target ⟨.message (origin.stamp message), state.arrivals.length⟩
    rw [same]
    have queued := genuine_queue recorded target queue fun other member => by
      rcases hops other member with old | rfl
      · exact recorded.queued target other old
      · exact arrived
    refine ⟨queued.owned, queued.asked, queued.stamped, queued.queued, fun other hop member => ?_, queued.completed⟩
    rcases rows (other, hop) member with old | new
    · exact recorded.refused other hop old
    · cases new
      exact arrived

theorem expired_authentic {life : Lifecycle} (moved : state.life.next event = some life) :
    ∀ completion ∈ state.expired event, Authentic state.arrivals completion := by
  intro completion new
  unfold expired at new
  split at new
  · rename_i id
    cases place : state.life.places id with
    | parked wait =>
      rw [place] at new
      rw [mem_singleton.mp new]
      simp only [Lifecycle.next, place] at moved
      split at moved
      · rename_i timed
        intro target _
        exact timed
      · cases moved
    | unborn | hand | waiting | gone =>
      rw [place] at new
      cases new
  · cases new

theorem separate_life (apart : state.apart event = true) (separate : state.Separate foreign (.life event)) :
    state.life.ParkUnclaimed event ∧ ∀ id target requestId dest timed, event = .run id (.ask target requestId dest timed) →
      target ≠ 0 ∧ ¬ foreign target := by
  by_cases asks : ∃ id target requestId dest timed, event = .run id (.ask target requestId dest timed)
  · obtain ⟨id, target, requestId, dest, timed, rfl⟩ := asks
    refine ⟨trivial, fun _ _ _ _ _ same => ?_⟩
    cases same
    exact ⟨of_decide_eq_true apart, separate⟩
  · refine ⟨?_, fun id target requestId dest timed same => absurd ⟨id, target, requestId, dest, timed, same⟩ asks⟩
    cases event with
    | step id answer pick => exact separate
    | _ => trivial

theorem genuine_next (genuine : Genuine foreign state) (event : TrafficEvent) (separate : state.Separate foreign event)
    (taken : state.next layout event = some after) : Genuine foreign after := by
  cases event with
  | life event =>
    rw [next, ite_none_right_eq_some] at taken
    obtain ⟨apart, stepped⟩ := taken
    obtain ⟨life, moved, rfl⟩ := map_eq_some_iff.mp stepped
    obtain ⟨unclaimed, asks⟩ := separate_life apart separate
    have completed := genuine_completes genuine (expired_authentic moved)
    exact genuine_life completed unclaimed asks moved
  | pop id filter ok =>
    rw [next] at taken
    split at taken
    · rename_i wait popping
      exact genuine_pop genuine (fun _ => separate) (by rw [popping]; rfl) taken
    · rename_i wait parking
      exact genuine_pop genuine (fun _ => separate) (by rw [parking]; rfl) taken
    · cases taken
  | arrive origin target message filter =>
    refine genuine_arrive genuine (fun same => ?_) taken
    subst same
    exact separate
  | offer index =>
    rw [next] at taken
    split at taken
    · cases taken
    · rename_i target hop waits
      split at taken
      · rename_i queue queued
        cases taken
        have arrived := genuine.refused target hop (mem_of_getElem? waits)
        have grown := genuine_queue genuine target queue fun other member => by
          rw [(try_enqueue_reject_ok queued).1] at member
          rcases mem_append.mp member with old | new
          · exact genuine.queued target other old
          · rw [mem_singleton.mp new]
            exact arrived
        exact ⟨grown.owned, grown.asked, grown.stamped, grown.queued,
          fun other row member => genuine.refused other row (mem_of_mem_eraseIdx member), grown.completed⟩
      · cases taken
  | withdraw index =>
    cases taken
    exact ⟨genuine.owned, genuine.asked, genuine.stamped, genuine.queued,
      fun target hop member => genuine.refused target hop (mem_of_mem_eraseIdx member), genuine.completed⟩

theorem initial_genuine (foreign : FlowId → Prop) (config : MailboxConfig) (maxAskWaits : Nat) :
    Genuine foreign (initial config maxAskWaits) := by
  refine ⟨Lifecycle.initial_owned maxAskWaits, ?_, ?_, ?_, ?_, ?_⟩
  · intro id wait target isWait
    cases isWait
  · intro arrival member
    cases member
  · intro id hop member
    cases member
  · intro target hop member
    cases member
  · intro completion member
    cases member

end Steps

theorem ask_replies_authentic (foreign : FlowId → Prop) (config : MailboxConfig) (maxAskWaits : Nat) (state : Traffic)
    (reached : Reach (next layout) (Separate foreign) (initial config maxAskWaits) state) :
    ∀ completion ∈ state.replies, Authentic state.arrivals completion := by
  have genuine : Genuine foreign state := by
    refine reach_invariant (initial_genuine foreign config maxAskWaits) ?_ reached
    intro before event after genuine separate taken
    exact genuine_next genuine event separate taken
  intro completion member
  rcases mem_append.mp member with completed | written
  · exact genuine.completed completion completed
  · obtain ⟨write, isWrite, rfl⟩ := mem_map.mp written
    obtain ⟨_, _, dead, reason, asked, notice⟩ := genuine.owned.exits write isWrite
    intro target asks
    rw [asked] at asks
    cases asks
    exact ⟨reason, notice⟩

def askingEvents : List TrafficEvent :=
  [.life (.spawn 1), .life (.spawn 2), .life (.step 1 .accepted 0), .life (.run 1 (.ask 2 7 0 false)),
    .life (.step 1 .accepted 0), .life (.step 1 .accepted 0)]

def frame (sender : FlowId) : TrafficEvent := .arrive .remote 1 (.new sender 7 3 .unit) .any

def repliedEvents : List TrafficEvent :=
  askingEvents ++ ([frame 9, .arrive (.flow 2 CapId.NONE) 1 (.new 0 7 3 (.int 5)) .any, .pop 1 .any true] : List TrafficEvent)

def afterEvents (events : List TrafficEvent) : Traffic :=
  (play (next .word) (initial .DEFAULT 0) events).getD (initial .DEFAULT 0)

theorem play_after {events : List TrafficEvent}
    (plays : (play (next .word) (initial .DEFAULT 0) events).isSome = true) :
    play (next .word) (initial .DEFAULT 0) events = some (afterEvents events) := by
  obtain ⟨state, played⟩ := isSome_iff_exists.mp plays
  rw [afterEvents, played, getD_some]

def parksNobody (state : Traffic) : TrafficEvent → Bool
  | .life (.run _ (.ask target ..)) => target ≠ 9
  | .life event => state.life.parksNobody event
  | .pop id .. => state.life.parksNobody (.step id .empty 0)
  | .arrive .remote _ message _ => message.sender = 9
  | .arrive .. | .offer _ | .withdraw _ => true

theorem separate_of_nobody (state : Traffic) (event : TrafficEvent) (nobody : state.parksNobody event = true) :
    state.Separate (· = 9) event := by
  cases event with
  | life event =>
    have unclaimed := Lifecycle.park_unclaimed_of_nobody state.life event
    cases event with
    | run id effect =>
      cases effect with
      | ask target requestId dest timed =>
        have other : target ≠ 9 := of_decide_eq_true nobody
        exact other
      | _ => exact unclaimed nobody
    | _ => exact unclaimed nobody
  | pop id filter ok => exact Lifecycle.park_unclaimed_of_nobody state.life (.step id .empty 0) nobody
  | arrive origin target message filter =>
    cases origin with
    | remote =>
      have elsewhere : message.sender = 9 := of_decide_eq_true nobody
      exact elsewhere
    | _ => trivial
  | offer | withdraw => trivial

theorem target_replies : ∃ completion ∈ (afterEvents repliedEvents).replies, completion.answeredBy 2 1 = true ∧
    Authentic (afterEvents repliedEvents).arrivals completion := by
  have played : play (next .word) (initial .DEFAULT 0) repliedEvents = some (afterEvents repliedEvents) :=
    play_after (by decide +kernel)
  have nobody : AllMeet (next .word) (fun state event => state.parksNobody event = true) (initial .DEFAULT 0)
      repliedEvents := by decide +kernel
  have reached := reach_mono separate_of_nobody (reach_of_play repliedEvents (initial .DEFAULT 0) nobody played)
  obtain ⟨completion, here, answered⟩ := List.any_eq_true.mp
    (show (afterEvents repliedEvents).replies.any (·.answeredBy 2 1) = true by decide +kernel)
  exact ⟨completion, here, answered, ask_replies_authentic .word (· = 9) .DEFAULT 0 _ reached completion here⟩

theorem answered_from {arrivals : List Arrival} {completion : Completion} {target : FlowId} {serial : Nat}
    (authentic : Authentic arrivals completion) (answered : completion.answeredBy target serial = true) :
    ∃ arrival, arrivals[serial]? = some arrival ∧ arrival.From target completion.wait.requestId := by
  obtain ⟨flow, wait, reply⟩ := completion
  obtain ⟨asks, ended⟩ := Bool.and_eq_true_iff.mp answered
  have answer := authentic target (of_decide_eq_true asks)
  cases reply with
  | hop own =>
    obtain rfl : own = serial := of_decide_eq_true ended
    obtain ⟨arrival, found, _, sent⟩ := answer
    exact ⟨arrival, found, sent⟩
  | notice | unit => cases ended

theorem noticed_from {arrivals : List Arrival} {completion : Completion} {target dead : FlowId}
    (authentic : Authentic arrivals completion) (noticed : completion.noticedBy target dead = true) : dead = target := by
  obtain ⟨flow, wait, reply⟩ := completion
  obtain ⟨asks, ended⟩ := Bool.and_eq_true_iff.mp noticed
  have answer := authentic target (of_decide_eq_true asks)
  cases reply with
  | notice hop =>
    obtain ⟨reason, rfl⟩ := answer
    exact (of_decide_eq_true ended).symm
  | hop | unit => cases ended

def forgedEvents : List TrafficEvent := askingEvents ++ ([frame 2, .pop 1 .any true] : List TrafficEvent)

-- Flow 2 dies and takes the row of flow 1's Ask, which times out; flow 1 asks
-- flow 3 and parks, and flow 2 wakes it with its own exit.
def staleEvents : List TrafficEvent :=
  ([.life (.spawn 1), .life (.spawn 2), .life (.spawn 3), .life (.step 1 .accepted 0), .life (.run 1 (.ask 2 7 0 true)),
    .life (.step 1 .accepted 0), .life (.step 1 .accepted 0), .pop 1 .any true, .life (.step 1 .accepted 0),
    .pop 1 .any true, .life (.task 0), .life (.task 0), .life (.task 0)] : List TrafficEvent) ++ Lifecycle.sweepEvents.map .life ++
  ([.life (.step 2 .accepted 0), .life (.expire 1 true), .life (.step 1 .accepted 0), .life (.step 1 .accepted 0),
    .life (.run 1 (.ask 3 8 4 false)), .life (.step 1 .accepted 0), .life (.step 1 .accepted 0), .pop 1 .any true,
    .life (.step 1 .accepted 0), .pop 1 .any true, .life (.step 2 .accepted 0)] : List TrafficEvent)

theorem replies_forged :
    (play (next .word) (initial .DEFAULT 0) forgedEvents = some (afterEvents forgedEvents) ∧
      (afterEvents forgedEvents).arrivals.map (·.origin) = [.remote] ∧
      ∃ completion ∈ (afterEvents forgedEvents).replies, completion.answeredBy 2 0 = true ∧
        ¬ Authentic (afterEvents forgedEvents).arrivals completion) ∧
    (play (next .word) (initial .DEFAULT 0) staleEvents = some (afterEvents staleEvents) ∧
      ∃ completion ∈ (afterEvents staleEvents).replies, completion.noticedBy 3 2 = true ∧
        ¬ Authentic (afterEvents staleEvents).arrivals completion) := by
  have remote : (afterEvents forgedEvents).arrivals.map (·.origin) = [.remote] := by decide +kernel
  refine ⟨⟨play_after (by decide +kernel), remote, ?_⟩, play_after (by decide +kernel), ?_⟩
  · obtain ⟨completion, here, answered⟩ := List.any_eq_true.mp
      (show (afterEvents forgedEvents).replies.any (·.answeredBy 2 0) = true by decide +kernel)
    refine ⟨completion, here, answered, fun authentic => ?_⟩
    obtain ⟨arrival, found, sent⟩ := answered_from authentic answered
    have origin : arrival.origin = .remote := by
      have mapped := congrArg (·.map Arrival.origin) found
      rw [← List.getElem?_map, remote] at mapped
      exact (Option.some.inj mapped).symm
    rcases sent with ⟨⟨reply, own⟩, _⟩ | ⟨monitor, reason, own⟩ | ⟨reason, own⟩
    · cases origin.symm.trans own
    · cases origin.symm.trans own
    · cases origin.symm.trans own
  · obtain ⟨completion, here, noticed⟩ := List.any_eq_true.mp
      (show (afterEvents staleEvents).replies.any (·.noticedBy 3 2) = true by decide +kernel)
    exact ⟨completion, here, noticed, fun authentic => absurd (noticed_from authentic noticed) (by decide)⟩

end Traffic

end Byteflow
