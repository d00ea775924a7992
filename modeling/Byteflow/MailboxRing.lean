import Byteflow.MailboxBounds
import Byteflow.RingBuffer

namespace Byteflow

open RingBuffer Option List

-- The queue as the source stores it. The outer Option of an operation is none
-- where the source panics.
structure MailboxRing where
  ring : RingBuffer Hop
  limit : Nat
  bytes : Nat
  byteLimit : Nat

namespace MailboxRing

variable (layout : Layout)

def new (limit byteLimit : Nat) : MailboxRing := ⟨.empty, limit, 0, byteLimit⟩

def isFull (queue : MailboxRing) : Bool := queue.ring.len ≥ queue.limit

def isEmpty (queue : MailboxRing) : Bool := queue.ring.len = 0

def wouldExceedBytes (queue : MailboxRing) (cost : Nat) : Bool :=
  match layout.checkedAdd queue.bytes cost with
  | some next => next > queue.byteLimit
  | none => true

def chargeBytes (queue : MailboxRing) (cost : Nat) : MailboxRing × Bool :=
  match layout.checkedAdd queue.bytes cost with
  | some next => ({ queue with bytes := next }, true)
  | none => (queue, false)

def reserveForPush (queue : MailboxRing) (capacity : Nat) : Option (MailboxRing × Bool) :=
  if queue.ring.len < queue.ring.capacity then some (queue, true)
  else
    let current := queue.ring.capacity
    let next := min (min (max current 1 * 2) layout.usizeMax) capacity
    if next ≤ current then some (queue, queue.ring.len < capacity)
    else (queue.ring.grow next).map fun ring => ({ queue with ring := ring }, true)

def pushBack (queue : MailboxRing) (hop : Hop) : Option MailboxRing :=
  (queue.ring.pushBack hop).map fun ring => { queue with ring := ring }

def settle (queue : MailboxRing) (removed : RingBuffer Hop × Option Hop) : MailboxRing × Option Hop :=
  match removed with
  | (ring, some hop) => ({ queue with ring := ring, bytes := queue.bytes - hop.value.memorySize layout }, some hop)
  | (ring, none) => ({ queue with ring := ring }, none)

-- The loop of enqueue and force_push with its dropped flag. Each round makes
-- the ring shorter, so it has at most len rounds.
def evictLoop (cost : Nat) : Nat → MailboxRing → Bool → Option (MailboxRing × Bool)
  | 0, queue, dropped => some (queue, dropped)
  | rounds + 1, queue, dropped =>
    if (queue.isFull || queue.wouldExceedBytes layout cost) && !queue.isEmpty then do
      let (shorter, old) ← queue.ring.popFront.map (queue.settle layout)
      evictLoop cost rounds shorter (dropped || old.isSome)
    else some (queue, dropped)

def evict (queue : MailboxRing) (cost : Nat) : Option (MailboxRing × Bool) :=
  queue.evictLoop layout cost queue.ring.len false

def takeMatching (queue : MailboxRing) (accepts : Hop → Bool) : Option (MailboxRing × Option Hop) :=
  if queue.ring.capacity = 0 then some (queue, none)
  else do
    match ← queue.ring.find accepts with
    | none => some (queue, none)
    | some logical => (queue.ring.removeAt logical).map (queue.settle layout)

def take (queue : MailboxRing) (filter : WaitFilter) : Option (MailboxRing × Option Hop) :=
  match filter with
  | .any => queue.ring.popFront.map (queue.settle layout)
  | other => queue.takeMatching layout (other.matches ·.value)

def tryEnqueueReject (queue : MailboxRing) (hop : Hop) : Option (MailboxRing × Except Hop Unit) :=
  if hop.value.withinNestingLimit = false then some (queue, .error hop)
  else
    let cost := hop.value.memorySize layout
    if queue.isFull || queue.wouldExceedBytes layout cost then some (queue, .error hop)
    else do
      let (reserved, room) ← queue.reserveForPush layout queue.limit
      if room = false then some (reserved, .error hop)
      else
        match reserved.chargeBytes layout cost with
        | (queue, false) => some (queue, .error hop)
        | (queue, true) => (queue.pushBack hop).map (·, .ok ())

def chargeReserved (queue : MailboxRing) (hop : Hop) (effect : EnqueueEffect) :
    Option (MailboxRing × Except MailboxFullReason EnqueueEffect) := do
  let (reserved, room) ← queue.reserveForPush layout queue.limit
  if room = false then some (reserved, .error .messageLimit)
  else
    match reserved.chargeBytes layout (hop.value.memorySize layout) with
    | (queue, false) => some (queue, .error .byteLimit)
    | (queue, true) => (queue.pushBack hop).map (·, .ok effect)

def enqueue (queue : MailboxRing) (hop : Hop) (policy : OverflowPolicy) :
    Option (MailboxRing × Except MailboxFullReason EnqueueEffect) :=
  if hop.value.withinNestingLimit = false then some (queue, .error .byteLimit)
  else
    let cost := hop.value.memorySize layout
    if !queue.isFull && !queue.wouldExceedBytes layout cost then queue.chargeReserved layout hop .enqueued
    else
      match policy with
      | .reject => some (queue, .error (if queue.isFull then .messageLimit else .byteLimit))
      | .dropNewest => some (queue, .ok .droppedNewest)
      | .dropOldest => do
        let (evicted, dropped) ← queue.evict layout cost
        if evicted.wouldExceedBytes layout cost then some (evicted, .error .byteLimit)
        else evicted.chargeReserved layout hop (if dropped then .droppedOldest else .enqueued)

def forcePush (queue : MailboxRing) (hop : Hop) : Option MailboxRing :=
  if hop.value.withinNestingLimit = false then some queue
  else do
    let cost := hop.value.memorySize layout
    let (evicted, _) ← queue.evict layout cost
    let (reserved, _) ← evicted.reserveForPush layout (max evicted.limit (layout.saturatingAdd evicted.ring.len 1))
    match reserved.chargeBytes layout cost with
    | (queue, false) => some queue
    | (queue, true) => queue.pushBack hop

end MailboxRing

inductive QueueOp where
  | enqueue (hop : Hop) (policy : OverflowPolicy)
  | tryEnqueueReject (hop : Hop)
  | take (filter : WaitFilter)
  | forcePush (hop : Hop)
  | close

inductive QueueReply where
  | enqueued (outcome : Except MailboxFullReason EnqueueEffect)
  | tried (outcome : Except Hop Unit)
  | taken (hop : Option Hop)
  | done

-- Mailbox::close marks the mailbox and leaves its queue alone.
def MailboxRing.apply (layout : Layout) (queue : MailboxRing) : QueueOp → Option (MailboxRing × QueueReply)
  | .enqueue hop policy => (queue.enqueue layout hop policy).map (Prod.map id .enqueued)
  | .tryEnqueueReject hop => (queue.tryEnqueueReject layout hop).map (Prod.map id .tried)
  | .take filter => (queue.take layout filter).map (Prod.map id .taken)
  | .forcePush hop => (queue.forcePush layout hop).map (·, .done)
  | .close => some (queue, .done)

def MailboxQueue.apply (layout : Layout) (queue : MailboxQueue) : QueueOp → MailboxQueue × QueueReply
  | .enqueue hop policy => Prod.map id .enqueued (queue.enqueue layout hop policy)
  | .tryEnqueueReject hop =>
    match queue.tryEnqueueReject layout hop with
    | .ok after => (after, .tried (.ok ()))
    | .error hop => (queue, .tried (.error hop))
  | .take filter => Prod.map id .taken (queue.take layout filter)
  | .forcePush hop => (queue.forcePush layout hop, .done)
  | .close => (queue, .done)

def MailboxRing.run (layout : Layout) (queue : MailboxRing) : List QueueOp → Option (MailboxRing × List QueueReply)
  | [] => some (queue, [])
  | op :: rest => do
    let (after, reply) ← queue.apply layout op
    let (final, replies) ← after.run layout rest
    some (final, reply :: replies)

def MailboxQueue.run (layout : Layout) (queue : MailboxQueue) : List QueueOp → MailboxQueue × List QueueReply
  | [] => (queue, [])
  | op :: rest =>
    let (after, reply) := queue.apply layout op
    let (final, replies) := after.run layout rest
    (final, reply :: replies)

namespace MailboxQueue

def storedIn (queue : MailboxQueue) (ring : RingBuffer Hop) : MailboxRing := ⟨ring, queue.limit, queue.bytes, queue.byteLimit⟩

variable {layout : Layout} {queue : MailboxQueue} {ring : RingBuffer Hop} {hop : Hop}

section Steps

variable (holds : ring.Holds queue.hops)

include holds

theorem stored_full : (queue.storedIn ring).isFull = queue.isFull := by
  rw [MailboxRing.isFull, isFull, storedIn, holds.len]

theorem stored_empty : (queue.storedIn ring).isEmpty = decide (queue.hops = []) := by
  rw [MailboxRing.isEmpty, storedIn, holds.len]
  exact decide_eq_decide.mpr length_eq_zero_iff

theorem stored_crowded (cost : Nat) :
    ((queue.storedIn ring).isFull || (queue.storedIn ring).wouldExceedBytes layout cost) = queue.crowded layout cost := by
  rw [stored_full holds]
  rfl

theorem reserve_spec {capacity : Nat} (below : queue.hops.length < capacity) (word : capacity ≤ layout.usizeMax) :
    ∃ after, (queue.storedIn ring).reserveForPush layout capacity = some (queue.storedIn after, true) ∧
      after.Holds queue.hops ∧ queue.hops.length < after.capacity := by
  rw [MailboxRing.reserveForPush]
  by_cases free : ring.len < ring.capacity
  · exact ⟨ring, if_pos free, holds, holds.len ▸ free⟩
  · have exactly : ring.capacity = queue.hops.length := by
      have fits : queue.hops.length ≤ ring.capacity := holds.fits
      have len := holds.len
      omega
    have grows : queue.hops.length < min (min (max ring.capacity 1 * 2) layout.usizeMax) capacity := by
      rw [exactly]
      omega
    obtain ⟨after, grown, afterHolds, afterCapacity⟩ := grow_spec holds grows
    have larger : ¬ min (min (max ring.capacity 1 * 2) layout.usizeMax) capacity ≤ ring.capacity := by
      rw [exactly] at grows ⊢
      exact Nat.not_le.mpr grows
    refine ⟨after, (if_neg free).trans ((if_neg larger).trans ?_), afterHolds, afterCapacity ▸ grows⟩
    exact congrArg (Option.map _) grown

omit holds in
theorem charge_spec (fits : queue.bytes + hop.value.memorySize layout ≤ layout.usizeMax) :
    (queue.storedIn ring).chargeBytes layout (hop.value.memorySize layout) =
      ({ queue with bytes := queue.bytes + hop.value.memorySize layout }.storedIn ring, true) := by
  rw [MailboxRing.chargeBytes]
  dsimp only [storedIn]
  rw [Layout.checkedAdd, if_pos fits]

theorem push_spec (free : queue.hops.length < ring.capacity) :
    ∃ after, ({ queue with bytes := queue.bytes + hop.value.memorySize layout }.storedIn ring).pushBack hop =
      some ((queue.pushed layout hop).storedIn after) ∧ after.Holds (queue.pushed layout hop).hops := by
  obtain ⟨after, done, afterHolds, _⟩ := push_back holds hop free
  refine ⟨after, ?_, afterHolds⟩
  rw [MailboxRing.pushBack]
  dsimp only [storedIn]
  rw [done]
  rfl

theorem admit_spec (word : queue.limit ≤ layout.usizeMax)
    (slot : queue.hops.length < queue.limit) (fits : queue.bytes + hop.value.memorySize layout ≤ layout.usizeMax)
    (effect : EnqueueEffect) :
    ∃ after, (queue.storedIn ring).chargeReserved layout hop effect = some ((queue.pushed layout hop).storedIn after, .ok effect) ∧
      after.Holds (queue.pushed layout hop).hops := by
  obtain ⟨wider, reserved, widerHolds, free⟩ := reserve_spec holds slot word
  obtain ⟨after, done, afterHolds⟩ := @push_spec layout queue wider hop widerHolds free
  refine ⟨after, ?_, afterHolds⟩
  rw [MailboxRing.chargeReserved, show (queue.storedIn ring).limit = queue.limit from rfl, reserved]
  dsimp only [bind_eq_bind, bind_some]
  rw [if_neg Bool.true_eq_false.mp, charge_spec fits]
  dsimp only
  rw [done]
  rfl

omit holds in
theorem evict_loop_spec (cost : Nat) (hops : List Hop) (queue : MailboxQueue) {ring : RingBuffer Hop} (dropped : Bool)
    (holds : ring.Holds hops) :
    ∃ after, (queue.storedIn ring).evictLoop layout cost hops.length dropped =
        some ((queue.evictFrom layout cost hops).storedIn after,
          dropped || decide ((queue.evictFrom layout cost hops).hops.length < hops.length)) ∧
      after.Holds (queue.evictFrom layout cost hops).hops := by
  induction hops generalizing queue ring dropped with
  | nil =>
    refine ⟨ring, ?_, holds⟩
    simp only [length_nil, Nat.not_lt_zero, decide_false, Bool.or_false]
    rfl
  | cons old rest ih =>
    have full : ((queue.storedIn ring).isFull || (queue.storedIn ring).wouldExceedBytes layout cost) =
        { queue with hops := old :: rest }.crowded layout cost := @stored_crowded layout { queue with hops := old :: rest } _ holds _
    have some_ : (queue.storedIn ring).isEmpty = false := @stored_empty { queue with hops := old :: rest } _ holds
    rw [length_cons, MailboxRing.evictLoop, full, some_]
    by_cases crowds : { queue with hops := old :: rest }.crowded layout cost = true
    · have evicts : queue.evictFrom layout cost (old :: rest) =
          evictFrom layout cost { queue with bytes := queue.bytes - old.value.memorySize layout } rest := if_pos crowds
      obtain ⟨shorter, popped, shorterHolds, _⟩ := pop_front_cons holds
      obtain ⟨after, done, afterHolds⟩ := ih { queue with bytes := queue.bytes - old.value.memorySize layout } true shorterHolds
      refine ⟨after, ?_, evicts ▸ afterHolds⟩
      have fewer : (queue.evictFrom layout cost (old :: rest)).hops.length < rest.length + 1 := by
        rw [evicts]
        exact Nat.lt_succ_of_le (evict_from_suffix cost rest).length_le
      rw [crowds, Bool.not_false, Bool.and_true, if_pos rfl, decide_eq_true fewer, Bool.or_true, evicts]
      change ((ring.popFront.map _).bind _) = _
      rw [popped]
      rw [Bool.true_or] at done
      rw [← done]
      change MailboxRing.evictLoop _ _ _ _ (dropped || true) = _
      rw [Bool.or_true]
      rfl
    · have stays : queue.evictFrom layout cost (old :: rest) = { queue with hops := old :: rest } := if_neg crowds
      refine ⟨ring, ?_, stays ▸ holds⟩
      rw [stays, Bool.eq_false_iff.mpr crowds, Bool.false_and, if_neg Bool.false_ne_true]
      simp only [length_cons, Nat.lt_irrefl, decide_false, Bool.or_false]
      rfl

theorem stored_evict_spec (cost : Nat) :
    ∃ after, (queue.storedIn ring).evict layout cost =
        some ((queue.evict layout cost).storedIn after, decide ((queue.evict layout cost).hops.length < queue.hops.length)) ∧
      after.Holds (queue.evict layout cost).hops := by
  obtain ⟨after, done, afterHolds⟩ := @evict_loop_spec layout cost queue.hops queue ring false holds
  refine ⟨after, ?_, afterHolds⟩
  rw [MailboxRing.evict, show (queue.storedIn ring).ring.len = queue.hops.length from holds.len, done, Bool.false_or]
  rfl

omit holds in
theorem settle_spec {index : Nat} {removal : Option (RingBuffer Hop × Option Hop)}
    (outside : queue.hops.length ≤ index → removal = some (ring, none))
    (inside : ∀ hop, queue.hops[index]? = some hop → ∃ after, removal = some (after, some hop) ∧
      after.Holds (queue.hops.eraseIdx index)) (holds : ring.Holds queue.hops) :
    ∃ after, removal.map ((queue.storedIn ring).settle layout) =
        some ((queue.removeAt layout index).1.storedIn after, (queue.removeAt layout index).2) ∧
      after.Holds (queue.removeAt layout index).1.hops := by
  rw [removeAt]
  cases found : queue.hops[index]? with
  | none =>
    refine ⟨ring, ?_, holds⟩
    rw [outside (getElem?_eq_none_iff.mp found)]
    rfl
  | some hop =>
    obtain ⟨after, done, afterHolds⟩ := inside hop found
    refine ⟨after, ?_, afterHolds⟩
    rw [done]
    rfl

theorem pop_front_spec :
    ∃ after, ring.popFront.map ((queue.storedIn ring).settle layout) =
        some ((queue.removeAt layout 0).1.storedIn after, (queue.removeAt layout 0).2) ∧
      after.Holds (queue.removeAt layout 0).1.hops := by
  refine settle_spec ?_ ?_ holds
  · intro nothing
    rw [length_eq_zero_iff.mp (Nat.le_zero.mp nothing)] at holds
    exact pop_front_nil holds
  · intro hop first
    obtain ⟨rest, hops⟩ : ∃ rest, queue.hops = hop :: rest := by
      cases hops : queue.hops with
      | nil => simp [hops] at first
      | cons head rest => simp_all
    rw [hops] at holds ⊢
    obtain ⟨after, done, afterHolds, _⟩ := pop_front_cons holds
    exact ⟨after, done, afterHolds⟩

theorem stored_remove_at_spec (index : Nat) :
    ∃ after, (ring.removeAt index).map ((queue.storedIn ring).settle layout) =
        some ((queue.removeAt layout index).1.storedIn after, (queue.removeAt layout index).2) ∧
      after.Holds (queue.removeAt layout index).1.hops := by
  refine settle_spec (remove_at_outside holds) ?_ holds
  intro hop found
  obtain ⟨after, done, afterHolds, _⟩ := remove_at_inside holds found
  exact ⟨after, done, afterHolds⟩

omit holds in
def takeMatching (layout : Layout) (queue : MailboxQueue) (accepts : Hop → Bool) : MailboxQueue × Option Hop :=
  match queue.hops.findIdx? accepts with
  | none => (queue, none)
  | some index => queue.removeAt layout index

theorem take_matching_spec (accepts : Hop → Bool) :
    ∃ after, (queue.storedIn ring).takeMatching layout accepts =
        some ((queue.takeMatching layout accepts).1.storedIn after, (queue.takeMatching layout accepts).2) ∧
      after.Holds (queue.takeMatching layout accepts).1.hops := by
  by_cases cells : ring.capacity = 0
  · have nothing : queue.hops = [] := length_eq_zero_iff.mp (Nat.le_zero.mp (cells ▸ holds.fits))
    have same : queue.takeMatching layout accepts = (queue, none) := by
      rw [takeMatching, nothing]
      rfl
    rw [same]
    exact ⟨ring, if_pos cells, holds⟩
  · have searched : (queue.storedIn ring).takeMatching layout accepts = _ := if_neg cells
    rw [searched, show (queue.storedIn ring).ring = ring from rfl, find_spec holds accepts, takeMatching]
    cases queue.hops.findIdx? accepts with
    | none => exact ⟨ring, rfl, holds⟩
    | some index => exact stored_remove_at_spec holds index

theorem stored_take_spec (filter : WaitFilter) :
    ∃ after, (queue.storedIn ring).take layout filter =
        some ((queue.take layout filter).1.storedIn after, (queue.take layout filter).2) ∧
      after.Holds (queue.take layout filter).1.hops := by
  cases filter with
  | any => exact pop_front_spec holds
  | _ => exact take_matching_spec holds _

end Steps

section Operations

theorem evict_slot (sound : queue.Sound layout) (cost : Nat) :
    (queue.evict layout cost).hops.length < (queue.evict layout cost).limit ∧ (queue.evict layout cost).limit = queue.limit := by
  obtain ⟨count, evicts, evicted⟩ := evict_spec layout queue cost
  rw [evicted]
  exact ⟨evicts_slot sound evicts, rfl⟩

theorem evict_fits (sound : queue.Sound layout) (hop : Hop) :
    (queue.evict layout (hop.value.memorySize layout)).bytes + hop.value.memorySize layout ≤ layout.usizeMax := by
  obtain ⟨count, evicts, evicted⟩ := evict_spec layout queue (hop.value.memorySize layout)
  rw [evicted]
  exact evicts_fits sound (hop.value.memory_size_le layout) evicts

variable (holds : ring.Holds queue.hops)

include holds

theorem stored_try_enqueue_spec (word : queue.limit ≤ layout.usizeMax) (hop : Hop) :
    ∃ after, ((queue.storedIn ring).apply layout (.tryEnqueueReject hop)) =
        some ((queue.apply layout (.tryEnqueueReject hop)).1.storedIn after, (queue.apply layout (.tryEnqueueReject hop)).2) ∧
      after.Holds (queue.apply layout (.tryEnqueueReject hop)).1.hops := by
  rw [MailboxRing.apply, MailboxRing.tryEnqueueReject, apply, tryEnqueueReject]
  by_cases deep : hop.value.withinNestingLimit = false
  · rw [if_pos deep, if_pos deep]
    exact ⟨ring, rfl, holds⟩
  rw [if_neg deep, if_neg deep]
  dsimp only
  rw [stored_crowded holds, ← crowded]
  by_cases full : queue.crowded layout (hop.value.memorySize layout) = true
  · rw [if_pos full, if_pos full]
    exact ⟨ring, rfl, holds⟩
  obtain ⟨slot, fits, _⟩ := crowded_false_iff.mp (Bool.eq_false_iff.mpr full)
  obtain ⟨wider, reserved, widerHolds, free⟩ := reserve_spec holds slot word
  obtain ⟨after, done, afterHolds⟩ := @push_spec layout queue wider hop widerHolds free
  rw [if_neg full, if_neg full, charge_and_push_fits fits]
  refine ⟨after, ?_, afterHolds⟩
  rw [show (queue.storedIn ring).limit = queue.limit from rfl, reserved]
  dsimp only [bind_eq_bind, bind_some]
  rw [if_neg Bool.true_eq_false.mp, charge_spec fits]
  dsimp only
  rw [done]
  rfl

theorem stored_enqueue_spec (sound : queue.Sound layout)
    (word : queue.limit ≤ layout.usizeMax) (hop : Hop) (policy : OverflowPolicy) :
    ∃ after, (queue.storedIn ring).enqueue layout hop policy =
        some ((queue.enqueue layout hop policy).1.storedIn after, (queue.enqueue layout hop policy).2) ∧
      after.Holds (queue.enqueue layout hop policy).1.hops := by
  unfold MailboxRing.enqueue enqueue
  dsimp only
  by_cases deep : hop.value.withinNestingLimit = false
  · rw [if_pos deep, if_pos deep]
    exact ⟨ring, rfl, holds⟩
  rw [if_neg deep, if_neg deep, stored_full holds]
  by_cases free : (!queue.isFull && !queue.wouldExceedBytes layout (hop.value.memorySize layout)) = true
  · have both : queue.isFull = false ∧ queue.wouldExceedBytes layout (hop.value.memorySize layout) = false := by
      simpa using free
    have room : queue.crowded layout (hop.value.memorySize layout) = false := by
      rw [crowded, both.1, both.2]
      rfl
    obtain ⟨slot, fits, _⟩ := crowded_false_iff.mp room
    rw [if_pos free, charge_and_push_fits fits]
    obtain ⟨after, done, afterHolds⟩ := @admit_spec layout queue ring hop holds word slot fits .enqueued
    exact ⟨after, (if_pos free).trans done, afterHolds⟩
  rw [if_neg free]
  cases policy with
  | reject | dropNewest => exact ⟨ring, if_neg free, holds⟩
  | dropOldest =>
    obtain ⟨shorter, evicted, shorterHolds⟩ := @stored_evict_spec layout queue ring holds (hop.value.memorySize layout)
    obtain ⟨slot, limit⟩ := evict_slot sound (hop.value.memorySize layout)
    have opened : ∀ other : Option (MailboxRing × Except MailboxFullReason EnqueueEffect),
        (if (!queue.isFull && !(queue.storedIn ring).wouldExceedBytes layout (hop.value.memorySize layout)) = true then
          (queue.storedIn ring).chargeReserved layout hop .enqueued else other) = other := fun other => if_neg free
    dsimp only
    rw [opened, evicted]
    dsimp only [bind_eq_bind, bind_some]
    by_cases exceeds : (queue.evict layout (hop.value.memorySize layout)).wouldExceedBytes layout (hop.value.memorySize layout) = true
    · rw [if_pos exceeds]
      exact ⟨shorter, if_pos exceeds, shorterHolds⟩
    · have fits := exceeds_false_iff.mp (Bool.eq_false_iff.mpr exceeds)
      obtain ⟨after, done, afterHolds⟩ := @admit_spec layout (queue.evict layout (hop.value.memorySize layout)) shorter hop
        shorterHolds (limit ▸ word) slot fits.1
        (if (queue.evict layout (hop.value.memorySize layout)).hops.length < queue.hops.length then .droppedOldest else .enqueued)
      rw [if_neg exceeds, charge_and_push_fits fits.1]
      refine ⟨after, (if_neg exceeds).trans ?_, afterHolds⟩
      simp only [decide_eq_true_eq]
      exact done

theorem stored_force_push_spec (sound : queue.Sound layout) (word : queue.limit ≤ layout.usizeMax) (hop : Hop) :
    ∃ after, (queue.storedIn ring).forcePush layout hop = some ((queue.forcePush layout hop).storedIn after) ∧
      after.Holds (queue.forcePush layout hop).hops := by
  unfold MailboxRing.forcePush
  by_cases deep : hop.value.withinNestingLimit = false
  · rw [if_pos deep, forcePush, if_pos deep]
    exact ⟨ring, rfl, holds⟩
  obtain ⟨shorter, evicted, shorterHolds⟩ := @stored_evict_spec layout queue ring holds (hop.value.memorySize layout)
  obtain ⟨slot, limit⟩ := evict_slot sound (hop.value.memorySize layout)
  have reservedWord : max (queue.evict layout (hop.value.memorySize layout)).limit (layout.saturatingAdd shorter.len 1) ≤
      layout.usizeMax := Nat.max_le.mpr ⟨limit ▸ word, Nat.min_le_right _ _⟩
  obtain ⟨wider, reserved, widerHolds, free⟩ :=
    reserve_spec shorterHolds (Nat.lt_of_lt_of_le slot (Nat.le_max_left _ (layout.saturatingAdd shorter.len 1))) reservedWord
  obtain ⟨after, done, afterHolds⟩ :=
    @push_spec layout (queue.evict layout (hop.value.memorySize layout)) wider hop widerHolds free
  have fits := evict_fits sound hop
  unfold forcePush
  rw [if_neg deep, if_neg deep]
  dsimp only
  rw [charge_and_push_fits fits, evicted]
  refine ⟨after, ?_, afterHolds⟩
  dsimp only [bind_eq_bind, bind_some]
  rw [show ((queue.evict layout (hop.value.memorySize layout)).storedIn shorter).limit =
    (queue.evict layout (hop.value.memorySize layout)).limit from rfl,
    show ((queue.evict layout (hop.value.memorySize layout)).storedIn shorter).ring = shorter from rfl, reserved]
  dsimp only [bind_some]
  rw [charge_spec fits]
  exact done

theorem apply_refines (sound : queue.Sound layout) (word : queue.limit ≤ layout.usizeMax) (op : QueueOp) :
    ∃ after, (queue.storedIn ring).apply layout op = some ((queue.apply layout op).1.storedIn after, (queue.apply layout op).2) ∧
      after.Holds (queue.apply layout op).1.hops := by
  cases op with
  | enqueue hop policy =>
    obtain ⟨after, done, afterHolds⟩ := stored_enqueue_spec holds sound word hop policy
    refine ⟨after, ?_, afterHolds⟩
    rw [MailboxRing.apply, done]
    rfl
  | tryEnqueueReject hop => exact stored_try_enqueue_spec holds word hop
  | take filter =>
    obtain ⟨after, done, afterHolds⟩ := @stored_take_spec layout queue ring holds filter
    refine ⟨after, ?_, afterHolds⟩
    rw [MailboxRing.apply, done]
    rfl
  | forcePush hop =>
    obtain ⟨after, done, afterHolds⟩ := stored_force_push_spec holds sound word hop
    refine ⟨after, ?_, afterHolds⟩
    rw [MailboxRing.apply, done]
    rfl
  | close => exact ⟨ring, rfl, holds⟩

omit holds

theorem apply_sound (sound : queue.Sound layout) (op : QueueOp) : (queue.apply layout op).1.Sound layout := by
  cases op with
  | enqueue hop policy => exact enqueue_sound sound hop policy
  | tryEnqueueReject hop =>
    rw [apply]
    cases tried : queue.tryEnqueueReject layout hop with
    | error refused => exact sound
    | ok after => exact (try_enqueue_reject_sound sound tried).2.2
  | take filter => exact take_sound sound filter
  | forcePush hop => exact force_push_sound sound hop
  | close => exact sound

structure Brings (layout : Layout) (queue : MailboxQueue) (op : QueueOp) (after : MailboxQueue) : Prop where
  limit : after.limit = queue.limit
  byteLimit : after.byteLimit = queue.byteLimit
  hops : ∀ hop ∈ after.hops, hop ∈ queue.hops ∨ hop.value.memorySize layout ≤ queue.byteLimit ∨ op = .forcePush hop

theorem brings_same (op : QueueOp) : Brings layout queue op queue := ⟨rfl, rfl, fun _ member => Or.inl member⟩

theorem brings_without (op : QueueOp) (count : Nat) : Brings layout queue op (queue.without layout count) :=
  ⟨rfl, rfl, fun _ member => Or.inl (mem_of_mem_drop member)⟩

theorem brings_pushed {op : QueueOp} (count : Nat)
    (comes : hop.value.memorySize layout ≤ queue.byteLimit ∨ op = .forcePush hop) :
    Brings layout queue op ((queue.without layout count).pushed layout hop) := by
  refine ⟨rfl, rfl, fun other member => ?_⟩
  rcases mem_append.mp member with old | new
  · exact Or.inl (mem_of_mem_drop old)
  · rw [mem_singleton.mp new]
    exact Or.inr comes

theorem brings_room (op : QueueOp) (free : queue.crowded layout (hop.value.memorySize layout) = false) :
    Brings layout queue op (queue.pushed layout hop) := by
  have small : hop.value.memorySize layout ≤ queue.byteLimit :=
    Nat.le_trans (Nat.le_add_left _ _) (crowded_false_iff.mp free).2.2
  have brings := @brings_pushed layout queue hop op 0 (Or.inl small)
  rw [without_zero] at brings
  exact brings

theorem apply_brings (sound : queue.Sound layout) (op : QueueOp) : Brings layout queue op (queue.apply layout op).1 := by
  cases op with
  | enqueue hop policy =>
    change Brings layout queue _ (queue.enqueue layout hop policy).1
    have outcome := enqueue_case layout queue hop policy
    generalize queue.enqueue layout hop policy = result at outcome ⊢
    cases outcome with
    | nested _ deep => exact brings_same _
    | room _ shallow free => exact brings_room _ free
    | reject | dropNewest => exact brings_same _
    | refuse count shallow full evicts exceeds => exact brings_without _ count
    | replace count shallow full evicts fits =>
      exact brings_pushed count (Or.inl (Nat.le_trans (Nat.le_add_left _ _) (exceeds_false_iff.mp fits).2))
  | tryEnqueueReject hop =>
    rw [apply]
    cases tried : queue.tryEnqueueReject layout hop with
    | error refused => exact brings_same _
    | ok after =>
      obtain ⟨rfl, free, _⟩ := try_enqueue_reject_sound sound tried
      exact brings_room _ free
  | take filter =>
    change Brings layout queue _ (queue.take layout filter).1
    rcases take_case layout queue filter with ⟨_, same⟩ | ⟨index, hop, found, _, same⟩
    · rw [same]
      exact brings_same _
    · rw [same]
      exact ⟨rfl, rfl, fun _ member => Or.inl (mem_of_mem_eraseIdx member)⟩
  | forcePush hop =>
    change Brings layout queue _ (queue.forcePush layout hop)
    rcases force_push_case sound hop with ⟨_, same⟩ | ⟨_, count, _, same⟩
    · rw [same]
      exact brings_same _
    · rw [same]
      exact brings_pushed count (Or.inr rfl)
  | close => exact brings_same _

end Operations

structure Kept (layout : Layout) (limit byteLimit : Nat) (ops : List QueueOp) (queue : MailboxQueue) : Prop where
  sameLimit : queue.limit = limit
  sameByteLimit : queue.byteLimit = byteLimit
  sound : queue.Sound layout
  forced : ∀ hop ∈ queue.hops, byteLimit < hop.value.memorySize layout → .forcePush hop ∈ ops

variable {limit byteLimit : Nat}

theorem kept_apply {ops : List QueueOp} (kept : Kept layout limit byteLimit ops queue) (op : QueueOp) :
    Kept layout limit byteLimit (ops ++ [op]) (queue.apply layout op).1 := by
  have brings := apply_brings kept.sound op
  refine ⟨brings.limit.trans kept.sameLimit, brings.byteLimit.trans kept.sameByteLimit, apply_sound kept.sound op, ?_⟩
  intro hop member large
  rcases brings.hops hop member with old | small | rfl
  · exact mem_append_left _ (kept.forced hop old large)
  · rw [kept.sameByteLimit] at small
    omega
  · exact mem_append_right _ (mem_singleton_self _)

theorem run_refines (word : limit ≤ layout.usizeMax) (past ops : List QueueOp) (kept : Kept layout limit byteLimit past queue)
    (holds : ring.Holds queue.hops) :
    ∃ after, (queue.storedIn ring).run layout ops = some ((queue.run layout ops).1.storedIn after, (queue.run layout ops).2) ∧
      after.Holds (queue.run layout ops).1.hops ∧ Kept layout limit byteLimit (past ++ ops) (queue.run layout ops).1 := by
  induction ops generalizing past queue ring with
  | nil => exact ⟨ring, rfl, holds, (append_nil past).symm ▸ kept⟩
  | cons op rest ih =>
    obtain ⟨next, done, nextHolds⟩ := apply_refines holds kept.sound (kept.sameLimit ▸ word) op
    obtain ⟨after, ran, afterHolds, afterKept⟩ := ih (past ++ [op]) (kept_apply kept op) nextHolds
    refine ⟨after, ?_, afterHolds, ?_⟩
    · rw [MailboxRing.run, done]
      dsimp only [bind_eq_bind, bind_some]
      rw [ran]
      rfl
    · rw [append_assoc] at afterKept
      exact afterKept

end MailboxQueue

theorem mailbox_ring_is_list (layout : Layout) (limit byteLimit : Nat) (slots : 1 ≤ limit) (word : limit ≤ layout.usizeMax)
    (ops : List QueueOp) :
    ∃ final, (MailboxRing.new limit byteLimit).run layout ops = some (final, ((MailboxQueue.new limit byteLimit).run layout ops).2) ∧
      final.ring.Holds ((MailboxQueue.new limit byteLimit).run layout ops).1.hops ∧
      final.bytes = MailboxQueue.total layout ((MailboxQueue.new limit byteLimit).run layout ops).1.hops ∧
      final.ring.len ≤ limit ∧
      (final.bytes ≤ byteLimit ∨ ∃ hop, ((MailboxQueue.new limit byteLimit).run layout ops).1.hops = [hop] ∧
        byteLimit < hop.value.memorySize layout ∧ .forcePush hop ∈ ops) := by
  have kept : MailboxQueue.Kept layout limit byteLimit [] (.new limit byteLimit) :=
    ⟨rfl, rfl, MailboxQueue.sound_new byteLimit slots, nofun⟩
  obtain ⟨after, ran, holds, ⟨sameLimit, sameByteLimit, sound, forced⟩⟩ :=
    MailboxQueue.run_refines word [] ops kept holds_empty
  refine ⟨_, ran, holds, sound.charged, ?_, ?_⟩
  · exact holds.len.trans_le (sound.counted.trans_eq sameLimit)
  · rcases sound.bounded with within | ⟨hop, alone, large⟩
    · exact Or.inl (within.trans_eq sameByteLimit)
    · rw [sameByteLimit] at large
      exact Or.inr ⟨hop, alone, large, forced hop (alone ▸ mem_singleton_self hop) large⟩

-- Two slots, the third hop in the slot of the first, three slots after the
-- fourth, and a hop taken from their middle.
def wrapping : List QueueOp :=
  [.enqueue ⟨.unit, 1⟩ .reject, .enqueue ⟨.unit, 2⟩ .reject, .take .any, .enqueue ⟨.message ⟨3, ⟨0⟩, 0, 7, .unit⟩, 3⟩ .reject,
    .tryEnqueueReject ⟨.unit, 4⟩, .take (.tag 7), .forcePush ⟨.unit, 5⟩, .close]

theorem wrapping_ring_runs : ∃ final, (MailboxRing.new 3 1024).run .word wrapping =
      some (final, ((MailboxQueue.new 3 1024).run .word wrapping).2) ∧
    final.ring.Holds [⟨.unit, 2⟩, ⟨.unit, 4⟩, ⟨.unit, 5⟩] := by
  obtain ⟨final, ran, holds, _⟩ := mailbox_ring_is_list .word 3 1024 (by decide) (by decide) wrapping
  have hops : ((MailboxQueue.new 3 1024).run .word wrapping).1.hops = [⟨.unit, 2⟩, ⟨.unit, 4⟩, ⟨.unit, 5⟩] := by rfl
  exact ⟨final, ran, hops ▸ holds⟩

end Byteflow
