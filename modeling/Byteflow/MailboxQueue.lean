import Byteflow.Chunk

namespace Byteflow

open List

def payloadMatches (tag : UInt16) (expected hop : Value) : Bool :=
  match hop.asMessage with
  | some message => message.tag == tag && message.payload.eq expected
  | none => false

inductive WaitFilter where
  | any
  | tag (expectedTag : UInt16)
  | payloadKind (kind : UInt8)
  | tagPayload (tag : UInt16) (payload : Int64)
  | tagValue (tag : UInt16) (payload : Value)
  | tagCmp (tag : UInt16) (cmp : IntCmp) (bound : Int64)
  | correlation (expectRequestId : UInt64) (expectSender : Option UInt64)
  | taggedCorrelation (tag : UInt16) (expectRequestId : UInt64)

def WaitFilter.matches (filter : WaitFilter) (value : Value) : Bool :=
  match filter with
  | .any => true
  | .tag expectedTag =>
    match value.asMessage with
    | some m => m.tag == expectedTag
    | none => false
  | .payloadKind kind =>
    match value.asMessage with
    | some m => m.payload.wireTag == kind
    | none => false
  | .tagPayload expectedTag payload =>
    match value.asMessage with
    | some m => m.tag == expectedTag && (match m.payload with
        | .int n => n == payload
        | _ => false)
    | none => false
  | .tagValue expectedTag payload => payloadMatches expectedTag payload value
  | .tagCmp expectedTag cmp bound =>
    match value.asMessage with
    | some m => m.tag == expectedTag && (match m.payload with
        | .int n => cmp.holds n bound
        | _ => false)
    | none => false
  | .correlation expectRequestId expectSender =>
    match value.asMessage with
    | some m => m.requestId == expectRequestId && (match expectSender with
        | some sender => m.sender == sender
        | none => true)
    | none => false
  | .taggedCorrelation expectedTag expectRequestId =>
    match value.asMessage with
    | some m => m.tag == expectedTag && m.requestId == expectRequestId
    | none => false

def WaitFilter.isAny : WaitFilter → Bool
  | .any => true
  | _ => false

inductive OverflowPolicy where
  | reject | dropNewest | dropOldest
deriving DecidableEq, Repr

inductive MailboxFullReason where
  | messageLimit | byteLimit | closed
deriving DecidableEq, Repr

inductive EnqueueEffect where
  | enqueued | droppedNewest | droppedOldest
deriving DecidableEq, Repr

-- serial is not in the source and no function reads it: it tells two sends of
-- one value apart in the history of a run.
structure Hop where
  value : Value
  serial : Nat

-- The queued hops, oldest first. The ring buffer of the source (MailboxRing) is
-- this list: it grows on demand up to limit, so a queue below its limit has a
-- free slot.
structure MailboxQueue where
  hops : List Hop
  limit : Nat
  bytes : Nat
  byteLimit : Nat

namespace MailboxQueue

variable (layout : Layout)

def new (limit byteLimit : Nat) : MailboxQueue := ⟨[], limit, 0, byteLimit⟩

def canEverFit (queue : MailboxQueue) (cost : Nat) : Bool := cost ≤ queue.byteLimit && queue.limit ≥ 1

def isFull (queue : MailboxQueue) : Bool := queue.hops.length ≥ queue.limit

def wouldExceedBytes (queue : MailboxQueue) (cost : Nat) : Bool :=
  match layout.checkedAdd queue.bytes cost with
  | some next => next > queue.byteLimit
  | none => true

-- charge_bytes and push_back; none is the refused charge.
def chargeAndPush (queue : MailboxQueue) (hop : Hop) : Option MailboxQueue := do
  let bytes ← layout.checkedAdd queue.bytes (hop.value.memorySize layout)
  some { queue with hops := queue.hops ++ [hop], bytes := bytes }

-- remove_at with the refund that take makes.
def removeAt (queue : MailboxQueue) (index : Nat) : MailboxQueue × Option Hop :=
  match queue.hops[index]? with
  | none => (queue, none)
  | some hop =>
    ({ queue with hops := queue.hops.eraseIdx index, bytes := queue.bytes - hop.value.memorySize layout }, some hop)

def take (queue : MailboxQueue) (filter : WaitFilter) : MailboxQueue × Option Hop :=
  match filter with
  | .any => queue.removeAt layout 0
  | other =>
    match queue.hops.findIdx? (other.matches ·.value) with
    | none => (queue, none)
    | some index => queue.removeAt layout index

def tryEnqueueReject (queue : MailboxQueue) (hop : Hop) : Except Hop MailboxQueue :=
  if hop.value.withinNestingLimit = false then .error hop
  else if queue.isFull || queue.wouldExceedBytes layout (hop.value.memorySize layout) then .error hop
  else
    match queue.chargeAndPush layout hop with
    | none => .error hop
    | some charged => .ok charged

-- The eviction loop of enqueue and force_push.
def evictFrom (cost : Nat) (queue : MailboxQueue) : List Hop → MailboxQueue
  | [] => { queue with hops := [] }
  | old :: rest =>
    let current := { queue with hops := old :: rest }
    if current.isFull || current.wouldExceedBytes layout cost then
      evictFrom cost { queue with bytes := queue.bytes - old.value.memorySize layout } rest
    else current

def evict (queue : MailboxQueue) (cost : Nat) : MailboxQueue := queue.evictFrom layout cost queue.hops

def enqueue (queue : MailboxQueue) (hop : Hop) (policy : OverflowPolicy) :
    MailboxQueue × Except MailboxFullReason EnqueueEffect :=
  let cost := hop.value.memorySize layout
  if hop.value.withinNestingLimit = false then (queue, .error .byteLimit)
  else if !queue.isFull && !queue.wouldExceedBytes layout cost then
    match queue.chargeAndPush layout hop with
    | none => (queue, .error .byteLimit)
    | some charged => (charged, .ok .enqueued)
  else
    match policy with
    | .reject => (queue, .error (if queue.isFull then .messageLimit else .byteLimit))
    | .dropNewest => (queue, .ok .droppedNewest)
    | .dropOldest =>
      let evicted := queue.evict layout cost
      if evicted.wouldExceedBytes layout cost then (evicted, .error .byteLimit)
      else
        match evicted.chargeAndPush layout hop with
        | none => (evicted, .error .byteLimit)
        | some charged =>
          (charged, .ok (if evicted.hops.length < queue.hops.length then .droppedOldest else .enqueued))

def forcePush (queue : MailboxQueue) (hop : Hop) : MailboxQueue :=
  if hop.value.withinNestingLimit = false then queue
  else
    let evicted := queue.evict layout (hop.value.memorySize layout)
    match evicted.chargeAndPush layout hop with
    | none => evicted
    | some charged => charged

def hasRoom (queue : MailboxQueue) (hop : Hop) : Bool :=
  !queue.isFull && !queue.wouldExceedBytes layout (hop.value.memorySize layout)

def total (hops : List Hop) : Nat := (hops.map (·.value.memorySize layout)).sum

def without (queue : MailboxQueue) (count : Nat) : MailboxQueue :=
  { queue with hops := queue.hops.drop count, bytes := queue.bytes - total layout (queue.hops.take count) }

def crowded (queue : MailboxQueue) (cost : Nat) : Bool := queue.isFull || queue.wouldExceedBytes layout cost

def pushed (queue : MailboxQueue) (hop : Hop) : MailboxQueue :=
  { queue with hops := queue.hops ++ [hop], bytes := queue.bytes + hop.value.memorySize layout }

section Lemmas

variable {layout : Layout} {queue : MailboxQueue} {hop : Hop} {after : MailboxQueue} {filter : WaitFilter} {cost : Nat}

theorem without_zero : queue.without layout 0 = queue := by
  rw [without, take_zero]
  rfl

theorem total_append (front back : List Hop) : total layout (front ++ back) = total layout front + total layout back := by
  rw [total, map_append, List.sum_append]
  rfl

theorem total_split (hops : List Hop) (count : Nat) :
    total layout hops = total layout (hops.take count) + total layout (hops.drop count) := by
  rw [← total_append, take_append_drop]

-- How many hops the eviction loop drops: as few as make room, or all.
structure Evicts (layout : Layout) (queue : MailboxQueue) (cost count : Nat) : Prop where
  within : count ≤ queue.hops.length
  needed : ∀ fewer < count, (queue.without layout fewer).crowded layout cost = true
  enough : count = queue.hops.length ∨ (queue.without layout count).crowded layout cost = false

theorem evict_from_spec (cost : Nat) (hops : List Hop) (queue : MailboxQueue) :
    ∃ count, Evicts layout { queue with hops := hops } cost count ∧
      queue.evictFrom layout cost hops = { queue with hops := hops }.without layout count := by
  induction hops generalizing queue with
  | nil => exact ⟨0, ⟨Nat.le_refl _, fun fewer less => absurd less (Nat.not_lt_zero _), Or.inl rfl⟩, without_zero.symm⟩
  | cons old rest ih =>
    rw [evictFrom]
    by_cases full : { queue with hops := old :: rest }.crowded layout cost = true
    · -- The hops behind the oldest are a queue of their own.
      have behind : ∀ count, { queue with hops := old :: rest }.without layout (count + 1) =
          { queue with bytes := queue.bytes - old.value.memorySize layout, hops := rest }.without layout count := by
        intro count
        simp only [without, drop_succ_cons, take_succ_cons, total, map_cons, List.sum_cons, Nat.sub_sub]
      obtain ⟨count, ⟨within, needed, enough⟩, evicted⟩ := ih { queue with bytes := queue.bytes - old.value.memorySize layout }
      refine ⟨count + 1, ⟨Nat.succ_le_succ within, ?_, ?_⟩, ?_⟩
      · intro fewer less
        cases fewer with
        | zero => rw [without_zero, full]
        | succ fewer => rw [behind, needed fewer (Nat.lt_of_succ_lt_succ less)]
      · rw [behind]
        exact enough.imp_left (congrArg Nat.succ)
      · rw [behind, ← evicted]
        exact if_pos full
    · refine ⟨0, ⟨Nat.zero_le _, fun fewer less => absurd less (Nat.not_lt_zero _), Or.inr ?_⟩, ?_⟩
      · rw [without_zero]
        exact Bool.eq_false_iff.mpr full
      · rw [without_zero]
        exact if_neg full

theorem evict_spec (layout : Layout) (queue : MailboxQueue) (cost : Nat) :
    ∃ count, Evicts layout queue cost count ∧ queue.evict layout cost = queue.without layout count :=
  evict_from_spec cost queue.hops queue

theorem evicts_unique {cost count other : Nat} (one : Evicts layout queue cost count) (two : Evicts layout queue cost other) :
    count = other := by
  rcases Nat.lt_trichotomy count other with less | same | more
  · rcases one.enough with all | room
    · have := two.within
      omega
    · rw [two.needed count less] at room
      cases room
  · exact same
  · rcases two.enough with all | room
    · have := one.within
      omega
    · rw [one.needed other more] at room
      cases room

theorem evicts_nothing (free : queue.crowded layout cost = false) : Evicts layout queue cost 0 :=
  ⟨Nat.zero_le _, fun _ less => absurd less (Nat.not_lt_zero _), Or.inr (without_zero ▸ free)⟩

theorem evict_room (free : queue.crowded layout cost = false) : queue.evict layout cost = queue := by
  obtain ⟨count, evicts, evicted⟩ := evict_spec layout queue cost
  rw [evicted, evicts_unique evicts (evicts_nothing free), without_zero]

theorem charge_and_push_fits (fits : queue.bytes + hop.value.memorySize layout ≤ layout.usizeMax) :
    queue.chargeAndPush layout hop = some (queue.pushed layout hop) := by
  simp only [chargeAndPush, Layout.checkedAdd, if_pos fits, Option.bind_eq_bind, Option.bind_some, pushed]

theorem exceeds_false_iff : queue.wouldExceedBytes layout cost = false ↔
    queue.bytes + cost ≤ layout.usizeMax ∧ queue.bytes + cost ≤ queue.byteLimit := by
  rw [wouldExceedBytes, Layout.checkedAdd]
  by_cases sum : queue.bytes + cost ≤ layout.usizeMax
  · simp [sum]
  · simp [sum]

theorem charge_and_push_some (room : queue.wouldExceedBytes layout (hop.value.memorySize layout) = false) :
    queue.chargeAndPush layout hop = some (queue.pushed layout hop) :=
  charge_and_push_fits (exceeds_false_iff.mp room).1

theorem crowded_at_end {cost count : Nat} (evicts : Evicts layout queue cost count)
    (exceeds : (queue.without layout count).wouldExceedBytes layout cost = true) : count = queue.hops.length := by
  rcases evicts.enough with all | room
  · exact all
  · rw [crowded, exceeds, Bool.or_true] at room
    cases room

theorem crowded_false_iff : queue.crowded layout cost = false ↔
    queue.hops.length < queue.limit ∧ queue.bytes + cost ≤ layout.usizeMax ∧ queue.bytes + cost ≤ queue.byteLimit := by
  rw [crowded, isFull, Bool.or_eq_false_iff, exceeds_false_iff, decide_eq_false_iff_not, Nat.not_le]

theorem has_room_iff : queue.hasRoom layout hop = true ↔ queue.crowded layout (hop.value.memorySize layout) = false := by
  simp [hasRoom, crowded]

inductive EnqueueCase (layout : Layout) (queue : MailboxQueue) (hop : Hop) :
    OverflowPolicy → MailboxQueue × Except MailboxFullReason EnqueueEffect → Prop where
  | nested (policy : OverflowPolicy) (deep : hop.value.withinNestingLimit = false) :
      EnqueueCase layout queue hop policy (queue, .error .byteLimit)
  | room (policy : OverflowPolicy) (shallow : hop.value.withinNestingLimit = true)
      (free : queue.crowded layout (hop.value.memorySize layout) = false) :
      EnqueueCase layout queue hop policy (queue.pushed layout hop, .ok .enqueued)
  | reject (shallow : hop.value.withinNestingLimit = true) (full : queue.crowded layout (hop.value.memorySize layout) = true) :
      EnqueueCase layout queue hop .reject (queue, .error (if queue.isFull then .messageLimit else .byteLimit))
  | dropNewest (shallow : hop.value.withinNestingLimit = true) (full : queue.crowded layout (hop.value.memorySize layout) = true) :
      EnqueueCase layout queue hop .dropNewest (queue, .ok .droppedNewest)
  | refuse (count : Nat) (shallow : hop.value.withinNestingLimit = true)
      (full : queue.crowded layout (hop.value.memorySize layout) = true)
      (evicts : Evicts layout queue (hop.value.memorySize layout) count)
      (exceeds : (queue.without layout count).wouldExceedBytes layout (hop.value.memorySize layout) = true) :
      EnqueueCase layout queue hop .dropOldest (queue.without layout count, .error .byteLimit)
  | replace (count : Nat) (shallow : hop.value.withinNestingLimit = true)
      (full : queue.crowded layout (hop.value.memorySize layout) = true)
      (evicts : Evicts layout queue (hop.value.memorySize layout) count)
      (fits : (queue.without layout count).wouldExceedBytes layout (hop.value.memorySize layout) = false) :
      EnqueueCase layout queue hop .dropOldest
        ((queue.without layout count).pushed layout hop, .ok (if 0 < count then .droppedOldest else .enqueued))

theorem enqueue_case (layout : Layout) (queue : MailboxQueue) (hop : Hop) (policy : OverflowPolicy) :
    EnqueueCase layout queue hop policy (queue.enqueue layout hop policy) := by
  unfold enqueue
  dsimp only
  by_cases deep : hop.value.withinNestingLimit = false
  · rw [if_pos deep]
    exact .nested policy deep
  rw [if_neg deep]
  have shallow := (Bool.not_eq_false _).mp deep
  by_cases free : (!queue.isFull && !queue.wouldExceedBytes layout (hop.value.memorySize layout)) = true
  · rw [if_pos free]
    have both : queue.isFull = false ∧ queue.wouldExceedBytes layout (hop.value.memorySize layout) = false := by
      simpa using free
    rw [charge_and_push_some both.2]
    refine .room policy shallow ?_
    rw [crowded, both.1, both.2]
    rfl
  rw [if_neg free]
  have full : queue.crowded layout (hop.value.memorySize layout) = true := by
    rw [crowded]
    revert free
    cases queue.isFull <;> cases queue.wouldExceedBytes layout (hop.value.memorySize layout) <;> simp
  cases policy with
  | reject => exact .reject shallow full
  | dropNewest => exact .dropNewest shallow full
  | dropOldest =>
    obtain ⟨count, evicts, evicted⟩ := evict_spec layout queue (hop.value.memorySize layout)
    dsimp only
    rw [evicted]
    by_cases exceeds : (queue.without layout count).wouldExceedBytes layout (hop.value.memorySize layout) = true
    · rw [if_pos exceeds]
      exact .refuse count shallow full evicts exceeds
    · rw [if_neg exceeds, charge_and_push_some (Bool.eq_false_iff.mpr exceeds)]
      have dropped : (queue.without layout count).hops.length < queue.hops.length ↔ 0 < count := by
        rw [without, length_drop]
        have := evicts.within
        omega
      simp only [dropped]
      exact .replace count shallow full evicts (Bool.eq_false_iff.mpr exceeds)

theorem enqueue_outcome (layout : Layout) (queue : MailboxQueue) (hop : Hop) (policy : OverflowPolicy) :
    (∃ kept effect, kept <:+ queue.hops ∧ (queue.enqueue layout hop policy).1.hops = kept ++ [hop] ∧
        (queue.enqueue layout hop policy).2 = .ok effect ∧ effect ≠ .droppedNewest) ∨
      ((queue.enqueue layout hop policy).1.hops <:+ queue.hops ∧
        ((queue.enqueue layout hop policy).2 = .ok .droppedNewest ∨
          ∃ reason, (queue.enqueue layout hop policy).2 = .error reason)) := by
  have outcome := enqueue_case layout queue hop policy
  generalize queue.enqueue layout hop policy = result at outcome ⊢
  cases outcome with
  | nested | reject => exact Or.inr ⟨suffix_rfl, Or.inr ⟨_, rfl⟩⟩
  | room => exact Or.inl ⟨queue.hops, .enqueued, suffix_rfl, rfl, rfl, by decide⟩
  | dropNewest => exact Or.inr ⟨suffix_rfl, Or.inl rfl⟩
  | refuse count => exact Or.inr ⟨drop_suffix count _, Or.inr ⟨_, rfl⟩⟩
  | replace count => exact Or.inl ⟨_, _, drop_suffix count _, rfl, rfl, by split <;> decide⟩

theorem enqueue_hops (layout : Layout) (queue : MailboxQueue) (hop : Hop) (policy : OverflowPolicy) :
    ∃ kept, kept <:+ queue.hops ∧
      ((queue.enqueue layout hop policy).1.hops = kept ∨ (queue.enqueue layout hop policy).1.hops = kept ++ [hop]) := by
  rcases enqueue_outcome layout queue hop policy with ⟨kept, _, front, hops, _⟩ | ⟨kept, _⟩
  · exact ⟨kept, front, Or.inr hops⟩
  · exact ⟨_, kept, Or.inl rfl⟩

theorem charge_and_push_hops {charged : MailboxQueue} (pushed : queue.chargeAndPush layout hop = some charged) :
    charged.hops = queue.hops ++ [hop] := by
  simp only [chargeAndPush, Option.bind_eq_bind, Option.bind_eq_some_iff] at pushed
  obtain ⟨bytes, _, same⟩ := pushed
  cases same
  rfl

theorem evict_from_suffix (cost : Nat) (hops : List Hop) : (queue.evictFrom layout cost hops).hops <:+ hops := by
  obtain ⟨count, _, evicted⟩ := @evict_from_spec layout cost hops queue
  rw [evicted]
  exact drop_suffix count hops

theorem force_push_hops (layout : Layout) (queue : MailboxQueue) (hop : Hop) :
    ∃ kept, kept <:+ queue.hops ∧ ((queue.forcePush layout hop).hops = kept ∨ (queue.forcePush layout hop).hops = kept ++ [hop]) := by
  unfold forcePush
  split
  · exact ⟨queue.hops, suffix_rfl, Or.inl rfl⟩
  · refine ⟨(queue.evict layout (hop.value.memorySize layout)).hops, evict_from_suffix _ queue.hops, ?_⟩
    dsimp only
    split
    · exact Or.inl rfl
    · rename_i charged
      exact Or.inr (charge_and_push_hops charged)

theorem try_enqueue_reject_eq (layout : Layout) (queue : MailboxQueue) (hop : Hop) : queue.tryEnqueueReject layout hop =
    if hop.value.withinNestingLimit = true ∧ queue.crowded layout (hop.value.memorySize layout) = false then
      .ok (queue.pushed layout hop)
    else .error hop := by
  unfold tryEnqueueReject
  by_cases deep : hop.value.withinNestingLimit = false
  · simp [deep]
  · rw [if_neg deep]
    change (if queue.crowded layout (hop.value.memorySize layout) = true then _ else _) = _
    by_cases full : queue.crowded layout (hop.value.memorySize layout) = true
    · simp [full]
    · have bytes := (Bool.or_eq_false_iff.mp (Bool.eq_false_iff.mpr full)).2
      simp [deep, full, charge_and_push_some bytes]

theorem try_enqueue_reject_ok (accepted : queue.tryEnqueueReject layout hop = .ok after) :
    after = queue.pushed layout hop ∧ queue.crowded layout (hop.value.memorySize layout) = false := by
  rw [try_enqueue_reject_eq] at accepted
  split at accepted
  · rename_i room
    cases accepted
    exact ⟨rfl, room.2⟩
  · cases accepted

theorem try_enqueue_reject_error {other : Hop} (refused : queue.tryEnqueueReject layout hop = .error other) :
    other = hop := by
  rw [try_enqueue_reject_eq] at refused
  split at refused
  · cases refused
  · exact (Except.error.inj refused).symm

theorem take_case (layout : Layout) (queue : MailboxQueue) (filter : WaitFilter) :
    (∀ hop ∈ queue.hops, filter.matches hop.value = false) ∧ queue.take layout filter = (queue, none) ∨
      ∃ index hop, queue.hops[index]? = some hop ∧ filter.matches hop.value = true ∧ queue.take layout filter =
        ({ queue with hops := queue.hops.eraseIdx index, bytes := queue.bytes - hop.value.memorySize layout }, some hop) := by
  have removed : ∀ {index hop}, queue.hops[index]? = some hop → queue.removeAt layout index =
      ({ queue with hops := queue.hops.eraseIdx index, bytes := queue.bytes - hop.value.memorySize layout }, some hop) := by
    intro index hop found
    rw [removeAt, found]
  unfold take
  split
  · cases found : queue.hops[0]? with
    | none =>
      have empty := length_eq_zero_iff.mp (Nat.le_zero.mp (getElem?_eq_none_iff.mp found))
      refine Or.inl ⟨?_, by rw [removeAt, found]⟩
      rw [empty]
      exact forall_mem_nil _
    | some hop => exact Or.inr ⟨0, hop, found, rfl, removed found⟩
  · split
    · rename_i missing
      exact Or.inl ⟨findIdx?_eq_none_iff.mp missing, rfl⟩
    · rename_i index found
      obtain ⟨inside, matches_, _⟩ := findIdx?_eq_some_iff_getElem.mp found
      exact Or.inr ⟨index, _, getElem?_eq_getElem inside, matches_, removed (getElem?_eq_getElem inside)⟩

theorem take_none (taken : queue.take layout filter = (after, none)) :
    ∀ hop ∈ queue.hops, filter.matches hop.value = false := by
  rcases take_case layout queue filter with ⟨nothing, _⟩ | ⟨_, _, _, _, same⟩
  · exact nothing
  · cases same.symm.trans taken

theorem take_some (taken : queue.take layout filter = (after, some hop)) :
    after.hops.Sublist queue.hops ∧ hop ∈ queue.hops ∧ filter.matches hop.value = true := by
  rcases take_case layout queue filter with ⟨_, same⟩ | ⟨index, other, found, matches_, same⟩
  · cases same.symm.trans taken
  · cases same.symm.trans taken
    exact ⟨eraseIdx_sublist _ _, mem_of_getElem? found, matches_⟩

theorem take_any_some (taken : queue.take layout .any = (after, some hop)) : queue.hops = hop :: after.hops := by
  change queue.removeAt layout 0 = _ at taken
  cases hops : queue.hops with
  | nil =>
    rw [removeAt, hops] at taken
    cases taken
  | cons head tail =>
    rw [removeAt, hops] at taken
    cases taken
    rfl

end Lemmas

end MailboxQueue

end Byteflow
