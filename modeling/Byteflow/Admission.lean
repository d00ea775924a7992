import Byteflow.MailboxBounds

namespace Byteflow

open Mailbox Option MailboxQueue

namespace MailboxQueue

variable (layout : Layout)

def fits (queue : MailboxQueue) (hop : Hop) : Bool :=
  match queue.tryEnqueueReject layout hop with
  | .ok _ => true
  | .error _ => false

section Fits

variable {layout : Layout} {queue : MailboxQueue} {hop : Hop}

theorem fits_iff (layout : Layout) (queue : MailboxQueue) (hop : Hop) :
    queue.fits layout hop = true ↔ hop.value.withinNestingLimit = true ∧ queue.hops.length < queue.limit ∧
      queue.bytes + hop.value.memorySize layout ≤ layout.usizeMax ∧
      queue.bytes + hop.value.memorySize layout ≤ queue.byteLimit := by
  rw [← crowded_false_iff, fits, try_enqueue_reject_eq]
  by_cases room : hop.value.withinNestingLimit = true ∧ queue.crowded layout (hop.value.memorySize layout) = false
  · rw [if_pos room]
    exact iff_of_true rfl room
  · rw [if_neg room]
    exact iff_of_false Bool.false_ne_true room

theorem fits_of_pushed {other : Hop} (fit : (queue.pushed layout hop).fits layout other = true) :
    queue.fits layout other = true := by
  rw [fits_iff] at fit ⊢
  simp only [pushed, List.length_append] at fit
  obtain ⟨nested, free, fitsWord, fitsBytes⟩ := fit
  exact ⟨nested, by omega, by omega, by omega⟩

-- A forced hop that needs no eviction, or only the oldest hop's place in a full
-- queue, makes room for nobody.
theorem force_push_fuller {other : Hop} (spared : queue.crowded layout (hop.value.memorySize layout) = false ∨
      queue.isFull = true ∧ (queue.without layout 1).crowded layout (hop.value.memorySize layout) = false)
    (fit : (queue.forcePush layout hop).fits layout other = true) : queue.fits layout other = true := by
  unfold forcePush at fit
  by_cases deep : hop.value.withinNestingLimit = false
  · rwa [if_pos deep] at fit
  · rw [if_neg deep] at fit
    rcases spared with free | ⟨full, free⟩
    · have bytes := (Bool.or_eq_false_iff.mp free).2
      rw [evict_room free] at fit
      dsimp only at fit
      rw [charge_and_push_some bytes] at fit
      exact fits_of_pushed fit
    · have slots : queue.limit ≤ queue.hops.length := of_decide_eq_true full
      have freed := (crowded_false_iff.mp free).1
      rw [without, List.length_drop] at freed
      have once : queue.Evicts layout (hop.value.memorySize layout) 1 := by
        refine ⟨by dsimp only at freed; omega, fun fewer less => ?_, Or.inr free⟩
        rw [Nat.lt_one_iff.mp less, without_zero, crowded, full, Bool.true_or]
      obtain ⟨count, evicts, evicted⟩ := evict_spec layout queue (hop.value.memorySize layout)
      rw [evicted, evicts_unique evicts once] at fit
      dsimp only at fit
      rw [charge_and_push_some (Bool.or_eq_false_iff.mp free).2, fits_iff] at fit
      simp only [pushed, without, List.length_append, List.length_drop, List.length_singleton] at fit
      omega

end Fits

end MailboxQueue

inductive OwnerPoint where
  | running
  | admitting
  | parking (filter : WaitFilter)

-- A mailbox with its owner. The owner's box is in the mailbox while it is parked.
structure Admission where
  race : MailboxRace
  owner : FlowBox
  point : OwnerPoint

inductive AdmissionEvent where
  | other (event : MailboxEvent)
  | receive (filter : WaitFilter)
  | ask (requestId target : UInt64)
  | askAdmitted (requestId target : UInt64)
  | park
  | admitOne

namespace Admission

variable (layout : Layout)

def admits (state : Admission) : Bool :=
  match state.point with
  | .admitting => true
  | _ => false

def initial (config : MailboxConfig) (owner : FlowBox) : Admission := ⟨.initial config, owner, .running⟩

def acts (state : Admission) : Bool :=
  match state.point with
  | .running => state.race.mailbox.parked.isNone && !state.race.busy state.owner.id
  | _ => false

def allows (state : Admission) : MailboxEvent → Bool
  | .send flow _ => flow.id ≠ state.owner.id || state.acts
  | .hostSend _ | .parkSender _ | .pushSystem _ | .takeWaitingSender _ | .takeParkedAt _ => true
  | .tryPopFilter _ | .parkFilter .. | .admitWaitingSender => false

def withMailbox (state : Admission) (mailbox : Mailbox) (point : OwnerPoint) : Admission :=
  { state with race := { state.race with mailbox := mailbox }, point := point }

-- try_pop_filter: the owner goes on at found, or goes on to park.
def pop (state : Admission) (filter : WaitFilter) (found : OwnerPoint) : Admission :=
  match state.race.mailbox.tryPopFilter layout filter with
  | (mailbox, some _) => state.withMailbox mailbox found
  | (mailbox, none) => state.withMailbox mailbox (.parking filter)

def replyFilter (requestId target : UInt64) : WaitFilter := .correlation requestId (some target)

def next (state : Admission) : AdmissionEvent → Option Admission
  | .other event =>
    if state.allows event then (state.race.next layout event).map fun race => { state with race := race } else none
  | .receive filter => if state.acts then some (state.pop layout filter .admitting) else none
  | .ask requestId target => if state.acts then some (state.pop layout (replyFilter requestId target) .running) else none
  | .askAdmitted requestId target =>
    if state.acts then some { state with point := .parking (replyFilter requestId target) } else none
  | .park =>
    match state.point with
    | .parking filter => some (state.withMailbox (state.race.mailbox.parkFilter layout state.owner filter).1 .running)
    | _ => none
  | .admitOne =>
    match state.point with
    | .admitting => some (state.withMailbox (state.race.mailbox.admitWaitingSender layout).1 .running)
    | _ => none

def Blocked (mailbox : Mailbox) : Prop :=
  ∀ waiter ∈ mailbox.waitingSenders.head?, mailbox.queue.fits layout waiter.message = false

def FirstTwo (holds : WaitingSender → WaitingSender → Prop) : List WaitingSender → Prop
  | first :: second :: _ => holds first second
  | _ => True

-- Why the steps that no admission follows make no room while a sender waits.
-- A pop finds nothing.
def PopsNothing (mailbox : Mailbox) (filter : WaitFilter) : Prop :=
  mailbox.waitingSenders = [] ∨ ∀ hop ∈ mailbox.queue.hops, filter.matches hop.value = false

-- A system hop evicts nothing, or only takes the oldest hop's place in a full
-- queue.
def EvictsNothing (mailbox : Mailbox) (cost : Nat) : Prop :=
  mailbox.waitingSenders = [] ∨ mailbox.queue.crowded layout cost = false ∨
    mailbox.queue.isFull = true ∧ (mailbox.queue.without layout 1).crowded layout cost = false

-- A first waiter that is killed leaves a full queue, or a waiter no smaller.
def LeavesLarger (mailbox : Mailbox) (sender : FlowId) : Prop :=
  FirstTwo (fun first second => first.flow.id ≠ sender ∨ mailbox.queue.isFull = true ∨
    first.message.value.withinNestingLimit = true ∧
      first.message.value.memorySize layout ≤ second.message.value.memorySize layout) mailbox.waitingSenders

-- The one admission after a Receive finds no room for two.
def AdmitsOne (mailbox : Mailbox) : Prop :=
  FirstTwo (fun first second => mailbox.queue.canEverFit (first.message.value.memorySize layout) = true ∧
    (mailbox.queue.limit ≤ mailbox.queue.hops.length + 1 ∨ mailbox.queue.byteLimit <
      mailbox.queue.bytes + first.message.value.memorySize layout + second.message.value.memorySize layout)) mailbox.waitingSenders

def NoDebt (state : Admission) : AdmissionEvent → Prop
  | .other (.pushSystem value) => state.admits = true ∨ EvictsNothing layout state.race.mailbox (value.memorySize layout)
  | .other (.takeWaitingSender sender) => state.admits = true ∨ LeavesLarger layout state.race.mailbox sender
  | .ask requestId target => PopsNothing state.race.mailbox (replyFilter requestId target)
  | .park =>
    match state.point with
    | .parking filter => PopsNothing state.race.mailbox filter
    | _ => True
  | .admitOne => AdmitsOne layout state.race.mailbox
  | _ => True

instance (holds : WaitingSender → WaitingSender → Prop) [∀ first second, Decidable (holds first second)] :
    DecidablePred (FirstTwo holds)
  | first :: second :: _ => inferInstanceAs (Decidable (holds first second))
  | [] | [_] => isTrue trivial

instance (mailbox : Mailbox) (filter : WaitFilter) : Decidable (PopsNothing mailbox filter) := inferInstanceAs (Decidable (_ ∨ _))

instance (mailbox : Mailbox) (cost : Nat) : Decidable (EvictsNothing layout mailbox cost) :=
  inferInstanceAs (Decidable (_ ∨ _ ∨ _ ∧ _))

instance (state : Admission) : DecidablePred (state.NoDebt layout)
  | .other (.pushSystem _) => inferInstanceAs (Decidable (_ ∨ EvictsNothing _ _ _))
  | .other (.takeWaitingSender _) => inferInstanceAs (Decidable (_ ∨ FirstTwo _ _))
  | .admitOne => inferInstanceAs (Decidable (FirstTwo _ _))
  | .ask .. => inferInstanceAs (Decidable (PopsNothing _ _))
  | .park =>
    match at_ : state.point with
    | .parking filter => decidable_of_iff (PopsNothing state.race.mailbox filter) (by simp [NoDebt, at_])
    | .running | .admitting => isTrue (by simp [NoDebt, at_])
  | .receive _ | .askAdmitted .. | .other (.hostSend _) | .other (.send ..) | .other (.parkSender _)
  | .other (.tryPopFilter _) | .other (.parkFilter ..) | .other .admitWaitingSender | .other (.takeParkedAt _) => isTrue trivial

section Steps

variable {layout : Layout} {mailbox after : Mailbox} {state : Admission} {event : MailboxEvent} {race : MailboxRace}

structure SameMode (mailbox after : Mailbox) : Prop where
  config : after.config = mailbox.config
  closed : after.closed = mailbox.closed

-- The first waiter is the same, and no hop fits that did not fit before.
structure Fuller (layout : Layout) (mailbox after : Mailbox) : Prop extends SameMode mailbox after where
  first : after.waitingSenders.head? = mailbox.waitingSenders.head?
  room : ∀ hop, after.queue.fits layout hop = true → mailbox.queue.fits layout hop = true

theorem blocked_fuller (blocked : Blocked layout mailbox) (fuller : Fuller layout mailbox after) : Blocked layout after := by
  intro waiter first
  rw [fuller.first] at first
  have refused := blocked waiter first
  rw [← Bool.not_eq_true] at refused ⊢
  exact fun fit => refused (fuller.room waiter.message fit)

theorem blocked_none (nobody : mailbox.waitingSenders = []) : Blocked layout mailbox := by
  intro waiter first
  rw [nobody] at first
  cases first

theorem push_fuller (layout : Layout) (rejects : mailbox.config.overflow = .reject) (hop : Hop) :
    Fuller layout mailbox (mailbox.push layout hop).1 := by
  rcases push_cases layout mailbox hop with ⟨_, same⟩ | ⟨_, _, _, same⟩ | ⟨_, same⟩
  · rw [same]
    exact ⟨⟨rfl, rfl⟩, rfl, fun _ => id⟩
  · rw [same]
    exact ⟨⟨rfl, rfl⟩, rfl, fun _ => id⟩
  · obtain ⟨stats, frame⟩ := enqueue_locked_frame layout mailbox hop .reject
    rw [same, rejects, frame]
    refine ⟨⟨rfl, rfl⟩, rfl, fun other fit => ?_⟩
    have outcome := enqueue_case layout mailbox.queue hop .reject
    generalize mailbox.queue.enqueue layout hop .reject = result at outcome fit
    cases outcome with
    | room => exact fits_of_pushed fit
    | nested | reject => exact fit

theorem park_sender_kept (layout : Layout) (mailbox : Mailbox) (flow : FlowBox) (message : Hop) :
    SameMode mailbox (mailbox.parkSender layout flow message).1 ∧
      (Blocked layout mailbox → Blocked layout (mailbox.parkSender layout flow message).1) := by
  rcases park_sender_cases layout mailbox flow message with ⟨_, _, same⟩ | ⟨_, same⟩ | ⟨tried, same⟩ <;> rw [same] <;>
    refine ⟨⟨rfl, rfl⟩, fun blocked => ?_⟩
  · exact blocked
  · exact blocked_fuller blocked ⟨⟨rfl, rfl⟩, rfl, fun _ => fits_of_pushed⟩
  · intro waiter first
    cases waiting : mailbox.waitingSenders with
    | nil =>
      rw [waiting] at first
      cases first
      simp [MailboxQueue.fits, tried]
    | cons head rest =>
      rw [waiting] at first
      exact blocked waiter (by rw [waiting]; exact first)

theorem take_parked_at_fuller (layout : Layout) (mailbox : Mailbox) (epoch : UInt64) : Fuller layout mailbox (mailbox.takeParkedAt epoch).1 := by
  unfold Mailbox.takeParkedAt
  split
  · exact ⟨⟨rfl, rfl⟩, rfl, fun _ => id⟩
  · cases mailbox.parked with
    | none | some => exact ⟨⟨rfl, rfl⟩, rfl, fun _ => id⟩

theorem push_system_kept (layout : Layout) (mailbox : Mailbox) (hop : Hop) :
    SameMode mailbox (mailbox.pushSystem layout hop).1 ∧
      (EvictsNothing layout mailbox (hop.value.memorySize layout) →
        Blocked layout mailbox → Blocked layout (mailbox.pushSystem layout hop).1) := by
  rcases push_system_cases layout mailbox hop with same | ⟨_, _, _, same⟩ | ⟨_, same⟩
  · rw [same]
    exact ⟨⟨rfl, rfl⟩, fun _ => id⟩
  · rw [same]
    exact ⟨⟨rfl, rfl⟩, fun _ => id⟩
  · rw [same]
    refine ⟨⟨rfl, rfl⟩, fun spared blocked => ?_⟩
    rcases spared with nobody | spared
    · exact blocked_none nobody
    · exact blocked_fuller blocked ⟨⟨rfl, rfl⟩, rfl, fun _ => force_push_fuller spared⟩

theorem take_waiting_sender_kept (layout : Layout) (mailbox : Mailbox) (sender : FlowId) :
    SameMode mailbox (mailbox.takeWaitingSender sender).1 ∧
      (LeavesLarger layout mailbox sender → Blocked layout mailbox → Blocked layout (mailbox.takeWaitingSender sender).1) := by
  unfold Mailbox.takeWaitingSender
  cases found : mailbox.waitingSenders.findIdx? (·.flow.id = sender) with
  | none => exact ⟨⟨rfl, rfl⟩, fun _ => id⟩
  | some position =>
    refine ⟨⟨rfl, rfl⟩, fun spared blocked waiter first => ?_⟩
    obtain ⟨inside, killed, _⟩ := List.findIdx?_eq_some_iff_getElem.mp found
    unfold Blocked at blocked
    unfold LeavesLarger at spared
    dsimp only at first
    generalize mailbox.waitingSenders = waiting at *
    cases waiting with
    | nil => cases first
    | cons head rest =>
      cases position with
      | succ position => exact blocked waiter first
      | zero =>
        cases rest with
        | nil => cases first
        | cons second rest =>
          cases first
          rw [← Bool.not_eq_true, fits_iff]
          rintro ⟨_, slots, fitsWord, fitsBytes⟩
          dsimp only at slots fitsWord fitsBytes
          rcases spared with other | full | ⟨shallow, smaller⟩
          · exact other (of_decide_eq_true killed)
          · exact absurd (of_decide_eq_true full) (Nat.not_le.mpr slots)
          · have refused := blocked head rfl
            rw [← Bool.not_eq_true, fits_iff] at refused
            exact refused ⟨shallow, slots, by omega, by omega⟩

theorem admit_waiting_sender_kept (layout : Layout) (live : mailbox.closed = false) :
    SameMode mailbox (mailbox.admitWaitingSender layout).1 ∧
      (AdmitsOne layout mailbox → Blocked layout (mailbox.admitWaitingSender layout).1) := by
  rcases admit_waiting_sender_cases layout mailbox with
    ⟨idle, same⟩ | ⟨first, rest, waiting, ⟨never, same⟩ | ⟨_, same⟩ | ⟨tried, _, _, same⟩⟩ <;> rw [same] <;>
    refine ⟨⟨rfl, rfl⟩, fun spared => ?_⟩
  · refine blocked_none (idle.resolve_left fun closed => ?_)
    cases live.symm.trans closed
  all_goals rw [AdmitsOne, waiting] at spared
  · cases rest with
    | nil => exact blocked_none rfl
    | cons second rest => cases never.symm.trans spared.1
  · cases rest with
    | nil => exact blocked_none rfl
    | cons second rest =>
      intro waiter next
      cases next
      obtain ⟨_, spared⟩ := spared
      rw [← Bool.not_eq_true, fits_iff]
      simp only [MailboxQueue.pushed, List.length_append, List.length_singleton, countEnqueued]
      rintro ⟨_, slots, _, bytes⟩
      omega
  · intro waiter next
    change waiter ∈ mailbox.waitingSenders.head? at next
    rw [waiting] at next
    cases next
    simp [MailboxQueue.fits, tried]

theorem other_mailbox (allowed : state.allows event = true) (taken : state.race.next layout event = some race) :
    (∃ hop, race.mailbox = (state.race.mailbox.push layout hop).1) ∨
      (∃ flow message, race.mailbox = (state.race.mailbox.parkSender layout flow message).1) ∨
      (∃ epoch, race.mailbox = (state.race.mailbox.takeParkedAt epoch).1) ∨
      (∃ value, event = .pushSystem value ∧
        race.mailbox = (state.race.mailbox.pushSystem layout ⟨value, state.race.sent.length⟩).1) ∨
      ∃ sender, event = .takeWaitingSender sender ∧ race.mailbox = (state.race.mailbox.takeWaitingSender sender).1 := by
  cases event with
  | hostSend value =>
    cases taken
    exact Or.inl ⟨_, MailboxRace.deliver_mailbox layout _ _ none⟩
  | send flow message =>
    rw [MailboxRace.next, ite_none_left_eq_some] at taken
    obtain ⟨_, same⟩ := taken
    cases same
    exact Or.inl ⟨_, MailboxRace.deliver_mailbox layout _ _ (some flow)⟩
  | parkSender index =>
    rw [MailboxRace.next] at taken
    split at taken
    · cases taken
    cases taken
    exact Or.inr (Or.inl ⟨_, _, rfl⟩)
  | pushSystem value =>
    refine Or.inr (Or.inr (Or.inr (Or.inl ⟨value, rfl, ?_⟩)))
    simp only [MailboxRace.next] at taken
    cases pushed : state.race.mailbox.pushSystem layout ⟨value, state.race.sent.length⟩ with
    | mk mailbox delivery =>
      rw [pushed] at taken
      cases delivery <;> cases taken <;> rfl
  | takeWaitingSender sender =>
    cases taken
    exact Or.inr (Or.inr (Or.inr (Or.inr ⟨sender, rfl, rfl⟩)))
  | takeParkedAt epoch =>
    cases taken
    exact Or.inr (Or.inr (Or.inl ⟨epoch, rfl⟩))
  | tryPopFilter | parkFilter | admitWaitingSender => cases allowed

structure Kept (layout : Layout) (state : Admission) : Prop where
  rejects : state.race.mailbox.config.overflow = .reject
  live : state.race.mailbox.closed = false
  blocked : state.admits = false → Blocked layout state.race.mailbox

theorem kept_mode {later : Admission} (kept : Kept layout state) (mode : SameMode state.race.mailbox later.race.mailbox)
    (blocked : later.admits = false → Blocked layout later.race.mailbox) : Kept layout later :=
  ⟨(congrArg MailboxConfig.overflow mode.config).trans kept.rejects, mode.closed.trans kept.live, blocked⟩

theorem other_kept (kept : Kept layout state) (allowed : state.allows event = true) (spared : state.NoDebt layout (.other event))
    (taken : state.race.next layout event = some race) : Kept layout { state with race := race } := by
  rcases other_mailbox allowed taken with
    ⟨hop, same⟩ | ⟨flow, message, same⟩ | ⟨epoch, same⟩ | ⟨value, rfl, same⟩ | ⟨sender, rfl, same⟩
  · have fuller := same ▸ push_fuller layout kept.rejects hop
    exact kept_mode kept fuller.toSameMode fun idle => blocked_fuller (kept.blocked idle) fuller
  · obtain ⟨mode, blocked⟩ := same ▸ park_sender_kept layout state.race.mailbox flow message
    exact kept_mode kept mode fun idle => blocked (kept.blocked idle)
  · have fuller := same ▸ take_parked_at_fuller layout state.race.mailbox epoch
    exact kept_mode kept fuller.toSameMode fun idle => blocked_fuller (kept.blocked idle) fuller
  · obtain ⟨mode, blocked⟩ := same ▸ push_system_kept layout state.race.mailbox ⟨value, state.race.sent.length⟩
    refine kept_mode kept mode fun idle => blocked (spared.resolve_left fun admits => ?_) (kept.blocked idle)
    cases admits.symm.trans idle
  · obtain ⟨mode, blocked⟩ := same ▸ take_waiting_sender_kept layout state.race.mailbox sender
    refine kept_mode kept mode fun idle => blocked (spared.resolve_left fun admits => ?_) (kept.blocked idle)
    cases admits.symm.trans idle

theorem try_pop_filter_frame (layout : Layout) (mailbox : Mailbox) (filter : WaitFilter) :
    SameMode mailbox (mailbox.tryPopFilter layout filter).1 ∧
      ((mailbox.tryPopFilter layout filter).2 = none → (mailbox.tryPopFilter layout filter).1 = mailbox) := by
  rw [Mailbox.tryPopFilter]
  rcases mailbox.queue.take layout filter with ⟨queue, hop⟩
  cases hop with
  | none => exact ⟨⟨rfl, rfl⟩, fun _ => rfl⟩
  | some hop => exact ⟨⟨rfl, rfl⟩, fun missing => by cases missing⟩

theorem try_pop_filter_blocked {filter : WaitFilter} (spared : PopsNothing mailbox filter) (blocked : Blocked layout mailbox) :
    Blocked layout (mailbox.tryPopFilter layout filter).1 := by
  rw [Mailbox.tryPopFilter]
  cases taken : mailbox.queue.take layout filter with
  | mk queue hop =>
    cases hop with
    | none => exact blocked
    | some hop =>
      obtain ⟨_, member, matches_⟩ := take_some taken
      refine blocked_none (spared.resolve_right fun nothing => ?_)
      cases matches_.symm.trans (nothing hop member)

theorem park_filter_kept (layout : Layout) (mailbox : Mailbox) (owner : FlowBox) (filter : WaitFilter) :
    SameMode mailbox (mailbox.parkFilter layout owner filter).1 ∧ (PopsNothing mailbox filter →
      Blocked layout mailbox → Blocked layout (mailbox.parkFilter layout owner filter).1) := by
  rw [Mailbox.parkFilter]
  cases taken : mailbox.queue.take layout filter with
  | mk queue hop =>
    cases hop with
    | none => exact ⟨⟨rfl, rfl⟩, fun _ => id⟩
    | some hop =>
      obtain ⟨_, member, matches_⟩ := take_some taken
      refine ⟨⟨rfl, rfl⟩, fun spared _ => blocked_none (spared.resolve_right fun nothing => ?_)⟩
      cases matches_.symm.trans (nothing hop member)

theorem pop_mailbox (layout : Layout) (state : Admission) (filter : WaitFilter) (found : OwnerPoint) :
    (state.pop layout filter found).race.mailbox = (state.race.mailbox.tryPopFilter layout filter).1 := by
  rw [pop]
  rcases state.race.mailbox.tryPopFilter layout filter with ⟨mailbox, hop⟩
  cases hop <;> rfl

theorem acts_idle (acts : state.acts = true) : state.admits = false := by
  unfold Admission.acts at acts
  unfold admits
  cases at_ : state.point with
  | running | parking => rfl
  | admitting => rw [at_] at acts; cases acts

theorem kept_next {later : Admission} (kept : Kept layout state) (event : AdmissionEvent)
    (spared : state.NoDebt layout event) (taken : state.next layout event = some later) : Kept layout later := by
  cases event with
  | other event =>
    rw [next, ite_none_right_eq_some] at taken
    obtain ⟨allowed, stepped⟩ := taken
    obtain ⟨race, moved, rfl⟩ := map_eq_some_iff.mp stepped
    exact other_kept kept allowed spared moved
  | receive filter =>
    rw [next, ite_none_right_eq_some] at taken
    obtain ⟨acts, same⟩ := taken
    cases same
    obtain ⟨mode, missed⟩ := try_pop_filter_frame layout state.race.mailbox filter
    rw [← pop_mailbox layout state filter .admitting] at mode missed
    refine kept_mode kept mode fun idle => ?_
    rw [missed]
    · exact kept.blocked (acts_idle acts)
    · -- The owner that found a hop has its admission to make.
      cases popped : state.race.mailbox.tryPopFilter layout filter with
      | mk mailbox hop =>
        rw [pop, popped] at idle
        cases hop with
        | none => rfl
        | some hop => cases idle
  | ask requestId target =>
    rw [next, ite_none_right_eq_some] at taken
    obtain ⟨acts, same⟩ := taken
    cases same
    have mode := (try_pop_filter_frame layout state.race.mailbox (replyFilter requestId target)).1
    have blocked := try_pop_filter_blocked spared (kept.blocked (acts_idle acts))
    rw [← pop_mailbox layout state _ .running] at mode blocked
    exact kept_mode kept mode fun _ => blocked
  | askAdmitted requestId target =>
    rw [next, ite_none_right_eq_some] at taken
    obtain ⟨acts, same⟩ := taken
    cases same
    exact kept_mode kept ⟨rfl, rfl⟩ fun _ => kept.blocked (acts_idle acts)
  | park =>
    rw [next] at taken
    cases at_ : state.point with
    | running | admitting => rw [at_] at taken; cases taken
    | parking filter =>
      rw [at_] at taken
      cases taken
      rw [NoDebt, at_] at spared
      obtain ⟨mode, blocked⟩ := park_filter_kept layout state.race.mailbox state.owner filter
      refine kept_mode kept mode fun _ => blocked spared (kept.blocked ?_)
      rw [admits, at_]
  | admitOne =>
    rw [next] at taken
    cases at_ : state.point with
    | running | parking => rw [at_] at taken; cases taken
    | admitting =>
      rw [at_] at taken
      cases taken
      obtain ⟨mode, blocked⟩ := admit_waiting_sender_kept layout kept.live
      exact kept_mode kept mode fun _ => blocked spared

end Steps

open Transition

theorem waiting_senders_not_stranded (config : MailboxConfig) (rejects : config.overflow = .reject) (owner : FlowBox)
    (state : Admission) (reached : Reach (next layout) (NoDebt layout) (initial config owner) state)
    (settled : state.admits = false) :
    ∀ waiter ∈ state.race.mailbox.waitingSenders.head?,
      state.race.mailbox.queue.tryEnqueueReject layout waiter.message = .error waiter.message := by
  have start : Kept layout (initial config owner) := ⟨rejects, rfl, fun _ => blocked_none rfl⟩
  have kept : Kept layout state :=
    reach_invariant start (fun _ event _ holds spared taken => kept_next holds event spared taken) reached
  intro waiter first
  have refused := kept.blocked settled waiter first
  unfold MailboxQueue.fits at refused
  cases tried : state.race.mailbox.queue.tryEnqueueReject layout waiter.message with
  | ok queue => rw [tried] at refused; cases refused
  | error hop => rw [try_enqueue_reject_error tried]

open MailboxRace (narrow ping)

def admittedEvents : List AdmissionEvent :=
  [.other (.send { id := 2 } ping), .other (.send { id := 3 } ping), .other (.send { id := 4 } ping),
    .other (.parkSender 0), .receive .any, .admitOne, .other (.parkSender 0), .receive (.tag 9), .park]

def admitted : Admission :=
  (play (next .word) (initial narrow { id := 1 }) admittedEvents).getD (initial narrow { id := 1 })

theorem admitted_sender_blocked : admitted.race.mailbox.parked.isSome = true ∧ admitted.race.mailbox.waitingSenders.length = 1 ∧
    ∀ waiter ∈ admitted.race.mailbox.waitingSenders.head?,
      admitted.race.mailbox.queue.tryEnqueueReject .word waiter.message = .error waiter.message := by
  have played : play (next .word) (initial narrow { id := 1 }) admittedEvents = some admitted := rfl
  have spared : AllMeet (next .word) (NoDebt .word) (initial narrow { id := 1 }) admittedEvents := by
    decide
  have reached := reach_of_play admittedEvents (initial narrow { id := 1 }) spared played
  exact ⟨rfl, rfl, waiting_senders_not_stranded .word narrow rfl { id := 1 } admitted reached rfl⟩

def stranded (config : MailboxConfig) (events : List AdmissionEvent) : Admission :=
  (play (next .word) (initial config { id := 1 }) events).getD (initial config { id := 1 })

def askEvents : List AdmissionEvent :=
  [.other (.send { id := 2 } (.new 0 5 7 .unit)), .other (.send { id := 3 } ping), .other (.parkSender 0), .ask 5 2,
    .receive .any, .park]

def parkEvents : List AdmissionEvent :=
  [.receive .any, .other (.send { id := 2 } ping), .other (.send { id := 3 } ping), .other (.parkSender 0), .park,
    .receive .any, .park]

def twoSlots : MailboxConfig := { narrow with capacity := ⟨2, MailboxRace.two_slots_valid⟩ }

def bulk : Message := .new 0 1 7 (.list (List.replicate 13 .unit))

def bulkEvents : List AdmissionEvent :=
  [.other (.send { id := 2 } bulk), .other (.send { id := 3 } ping), .other (.send { id := 4 } ping),
    .other (.parkSender 0), .other (.parkSender 0), .receive .any, .admitOne, .receive (.tag 9), .park]

def Stranded (config : MailboxConfig) (events : List AdmissionEvent) : Prop :=
  play (next .word) (initial config { id := 1 }) events = some (stranded config events) ∧
    (stranded config events).admits = false ∧ (stranded config events).race.mailbox.parked.isSome = true ∧
    ∃ waiter ∈ (stranded config events).race.mailbox.waitingSenders.head?,
      (stranded config events).race.mailbox.queue.fits .word waiter.message = true

theorem senders_stranded : Stranded narrow askEvents ∧ Stranded narrow parkEvents ∧ Stranded twoSlots bulkEvents := by
  refine ⟨⟨rfl, rfl, rfl, ?_⟩, ⟨rfl, rfl, rfl, ?_⟩, rfl, rfl, rfl, ?_⟩
  · exact ⟨_, rfl, rfl⟩
  · exact ⟨_, rfl, rfl⟩
  · exact ⟨_, rfl, rfl⟩

end Admission

end Byteflow
