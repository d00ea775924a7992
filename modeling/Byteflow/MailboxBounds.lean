import Byteflow.MailboxRace

namespace Byteflow

open List

theorem Value.memory_size_le (layout : Layout) (value : Value) : value.memorySize layout ≤ layout.usizeMax := by
  unfold Value.memorySize
  split
  · exact Nat.min_le_right _ _
  · exact Nat.le_refl _

namespace MailboxQueue

-- What holds between two operations of a queue. Only a forced hop can be
-- larger than the byte limit, and it is then alone.
structure Sound (layout : Layout) (queue : MailboxQueue) : Prop where
  slots : 1 ≤ queue.limit
  charged : queue.bytes = total layout queue.hops
  counted : queue.hops.length ≤ queue.limit
  bounded : queue.bytes ≤ queue.byteLimit ∨ ∃ hop, queue.hops = [hop] ∧ queue.byteLimit < hop.value.memorySize layout

section Sound

variable {layout : Layout} {queue : MailboxQueue} {hop : Hop} {count cost : Nat}

theorem sound_new {limit : Nat} (byteLimit : Nat) (slots : 1 ≤ limit) : (new limit byteLimit).Sound layout :=
  ⟨slots, rfl, Nat.zero_le _, Or.inl (Nat.zero_le _)⟩

variable (sound : queue.Sound layout)

include sound

theorem without_charged (count : Nat) :
    (queue.without layout count).bytes = total layout (queue.without layout count).hops := by
  change queue.bytes - total layout (queue.hops.take count) = total layout (queue.hops.drop count)
  rw [sound.charged, total_split queue.hops count, Nat.add_sub_cancel_left]

theorem without_all : queue.without layout queue.hops.length = { queue with hops := [], bytes := 0 } := by
  rw [without, drop_length, take_length, sound.charged, Nat.sub_self]

theorem sound_without (count : Nat) : (queue.without layout count).Sound layout := by
  refine ⟨sound.slots, without_charged sound count, ?_, ?_⟩
  · change (queue.hops.drop count).length ≤ queue.limit
    rw [length_drop]
    exact Nat.le_trans (Nat.sub_le _ _) sound.counted
  · rcases sound.bounded with within | ⟨hop, alone, large⟩
    · exact Or.inl (Nat.le_trans (Nat.sub_le _ _) within)
    · cases count with
      | zero =>
        rw [without_zero]
        exact Or.inr ⟨hop, alone, large⟩
      | succ count =>
        have none : (queue.without layout (count + 1)).hops = [] := by
          change queue.hops.drop (count + 1) = []
          rw [alone, drop_succ_cons, drop_nil]
        refine Or.inl ?_
        rw [without_charged sound, none]
        exact Nat.zero_le _

theorem sound_pushed (slot : queue.hops.length < queue.limit)
    (fits : queue.bytes + hop.value.memorySize layout ≤ queue.byteLimit ∨ queue.hops = []) :
    (queue.pushed layout hop).Sound layout := by
  have charged : queue.bytes + hop.value.memorySize layout = total layout (queue.hops ++ [hop]) := by
    rw [total_append, ← sound.charged]
    rfl
  refine ⟨sound.slots, charged, ?_, ?_⟩
  · change (queue.hops ++ [hop]).length ≤ queue.limit
    rw [length_append]
    exact slot
  · rcases fits with fits | empty
    · exact Or.inl fits
    · by_cases large : queue.byteLimit < hop.value.memorySize layout
      · refine Or.inr ⟨hop, ?_, large⟩
        change queue.hops ++ [hop] = [hop]
        rw [empty]
        rfl
      · refine Or.inl ?_
        change queue.bytes + hop.value.memorySize layout ≤ queue.byteLimit
        rw [sound.charged, empty]
        exact (Nat.zero_add _).trans_le (Nat.not_lt.mp large)

theorem evicts_slot (evicts : Evicts layout queue cost count) : (queue.without layout count).hops.length < queue.limit := by
  rcases evicts.enough with all | room
  · rw [all, without_all sound]
    exact sound.slots
  · exact (crowded_false_iff.mp room).1

theorem evicts_fits (word : cost ≤ layout.usizeMax)
    (evicts : Evicts layout queue cost count) : (queue.without layout count).bytes + cost ≤ layout.usizeMax := by
  rcases evicts.enough with all | room
  · rw [all, without_all sound]
    exact (Nat.zero_add _).trans_le word
  · exact (crowded_false_iff.mp room).2.1

theorem enqueue_sound (hop : Hop) (policy : OverflowPolicy) : (queue.enqueue layout hop policy).1.Sound layout := by
  have outcome := enqueue_case layout queue hop policy
  generalize queue.enqueue layout hop policy = result at outcome ⊢
  cases outcome with
  | nested | reject | dropNewest => exact sound
  | room _ shallow free =>
    obtain ⟨slot, _, fits⟩ := crowded_false_iff.mp free
    exact sound_pushed sound slot (Or.inl fits)
  | refuse count shallow full evicts exceeds => exact sound_without sound count
  | replace count shallow full evicts fits =>
    exact sound_pushed (sound_without sound count) (evicts_slot sound evicts) (Or.inl (exceeds_false_iff.mp fits).2)

theorem try_enqueue_reject_sound {after : MailboxQueue} (accepted : queue.tryEnqueueReject layout hop = .ok after) :
    after = queue.pushed layout hop ∧ queue.crowded layout (hop.value.memorySize layout) = false ∧ after.Sound layout := by
  obtain ⟨rfl, room⟩ := try_enqueue_reject_ok accepted
  obtain ⟨slot, _, fits⟩ := crowded_false_iff.mp room
  exact ⟨rfl, room, sound_pushed sound slot (Or.inl fits)⟩

theorem force_push_case (hop : Hop) :
    hop.value.withinNestingLimit = false ∧ queue.forcePush layout hop = queue ∨
      hop.value.withinNestingLimit = true ∧ ∃ count, Evicts layout queue (hop.value.memorySize layout) count ∧
        queue.forcePush layout hop = (queue.without layout count).pushed layout hop := by
  unfold forcePush
  by_cases deep : hop.value.withinNestingLimit = false
  · exact Or.inl ⟨deep, if_pos deep⟩
  · refine Or.inr ⟨(Bool.not_eq_false _).mp deep, ?_⟩
    obtain ⟨count, evicts, evicted⟩ := evict_spec layout queue (hop.value.memorySize layout)
    refine ⟨count, evicts, ?_⟩
    rw [if_neg deep, evicted]
    dsimp only
    rw [charge_and_push_fits (evicts_fits sound (hop.value.memory_size_le layout) evicts)]

theorem sound_forced
    (evicts : Evicts layout queue (hop.value.memorySize layout) count) : ((queue.without layout count).pushed layout hop).Sound layout := by
  refine sound_pushed (sound_without sound count) (evicts_slot sound evicts) ?_
  rcases evicts.enough with all | room
  · rw [all, without_all sound]
    exact Or.inr rfl
  · exact Or.inl (crowded_false_iff.mp room).2.2

theorem force_push_sound (hop : Hop) : (queue.forcePush layout hop).Sound layout := by
  rcases force_push_case sound hop with ⟨_, same⟩ | ⟨_, count, evicts, same⟩
  · rw [same]
    exact sound
  · rw [same]
    exact sound_forced sound evicts

omit sound in
theorem total_erase {hops : List Hop} {index : Nat} (found : hops[index]? = some hop) :
    total layout (hops.eraseIdx index) = total layout hops - hop.value.memorySize layout := by
  obtain ⟨inside, rfl⟩ := List.getElem?_eq_some_iff.mp found
  have back : total layout (hops.drop index) = hops[index].value.memorySize layout + total layout (hops.drop (index + 1)) := by
    rw [drop_eq_getElem_cons inside]
    rfl
  rw [eraseIdx_eq_take_drop_succ, total_append, total_split hops index, back]
  omega

theorem sound_erase {index : Nat} (found : queue.hops[index]? = some hop) :
    { queue with hops := queue.hops.eraseIdx index, bytes := queue.bytes - hop.value.memorySize layout }.Sound layout := by
  have fewer : (queue.hops.eraseIdx index).length ≤ queue.hops.length := length_eraseIdx_le queue.hops index
  refine ⟨sound.slots, ?_, Nat.le_trans fewer sound.counted, ?_⟩
  · rw [total_erase found, sound.charged]
  · rcases sound.bounded with within | ⟨only, alone, large⟩
    · exact Or.inl (Nat.le_trans (Nat.sub_le _ _) within)
    · refine Or.inl ?_
      have here : hop = only := by
        rw [alone] at found
        exact mem_singleton.mp (mem_of_getElem? found)
      have bytes : queue.bytes = hop.value.memorySize layout := by
        rw [sound.charged, alone, here]
        exact Nat.add_zero _
      change queue.bytes - hop.value.memorySize layout ≤ queue.byteLimit
      omega

theorem take_sound (filter : WaitFilter) : (queue.take layout filter).1.Sound layout := by
  rcases take_case layout queue filter with ⟨_, same⟩ | ⟨index, hop, found, _, same⟩
  · rw [same]
    exact sound
  · rw [same]
    exact sound_erase sound found

omit sound

-- DropOldest evicts every hop for one that no queue of this size can hold.
def Wipes (layout : Layout) (queue : MailboxQueue) (policy : OverflowPolicy) (hop : Hop) : Prop :=
  policy = .dropOldest ∧ queue.hops ≠ [] ∧ hop.value.withinNestingLimit = true ∧
    queue.byteLimit < hop.value.memorySize layout

theorem oversized_crowded (large : queue.byteLimit < cost) (count : Nat) :
    (queue.without layout count).wouldExceedBytes layout cost = true := by
  rw [← Bool.not_eq_false, exceeds_false_iff]
  intro ⟨_, fits⟩
  have bound : (queue.without layout count).bytes + cost ≤ queue.byteLimit := fits
  omega

theorem wiped_enqueue {policy : OverflowPolicy} (wipes : Wipes layout queue policy hop) :
    (queue.enqueue layout hop policy).2 = .error .byteLimit ∧ (queue.enqueue layout hop policy).1.hops = [] := by
  obtain ⟨rfl, _, shallow, large⟩ := wipes
  have exceeds := @oversized_crowded layout queue _ large
  have outcome := enqueue_case layout queue hop .dropOldest
  generalize queue.enqueue layout hop .dropOldest = result at outcome ⊢
  cases outcome with
  | nested _ deep =>
    rw [shallow] at deep
    cases deep
  | room _ _ free =>
    have here := exceeds 0
    rw [without_zero] at here
    rw [crowded, here, Bool.or_true] at free
    cases free
  | refuse count _ _ evicts over_ =>
    refine ⟨rfl, ?_⟩
    change queue.hops.drop count = []
    rw [crowded_at_end evicts over_, drop_length]
  | replace count _ _ evicts fits =>
    rw [exceeds count] at fits
    cases fits

theorem refused_enqueue_iff (sound : queue.Sound layout) (policy : OverflowPolicy) :
    (∀ reason, (queue.enqueue layout hop policy).2 = .error reason → (queue.enqueue layout hop policy).1 = queue) ↔
      ¬ Wipes layout queue policy hop := by
  constructor
  · intro unchanged wipes
    obtain ⟨refused, emptied⟩ := wiped_enqueue wipes
    rw [unchanged _ refused] at emptied
    exact wipes.2.1 emptied
  · intro spared reason
    have outcome := enqueue_case layout queue hop policy
    generalize queue.enqueue layout hop policy = result at outcome ⊢
    intro refused
    cases outcome with
    | nested | reject => rfl
    | room | dropNewest | replace => cases refused
    | refuse count shallow full evicts exceeds =>
      have all := crowded_at_end evicts exceeds
      by_cases empty : queue.hops = []
      · rw [empty] at all
        rw [all]
        exact without_zero
      · -- An empty queue refuses only what is larger than the whole budget.
        refine absurd ⟨rfl, empty, shallow, ?_⟩ spared
        by_contra small
        rw [all, without_all sound, ← Bool.not_eq_false, exceeds_false_iff] at exceeds
        refine exceeds ⟨?_, ?_⟩
        · exact (Nat.zero_add _).trans_le (hop.value.memory_size_le layout)
        · exact (Nat.zero_add _).trans_le (Nat.not_lt.mp small)

end Sound

end MailboxQueue

namespace Mailbox

structure Untouched (before after : Mailbox) : Prop where
  queue : after.queue = before.queue
  parked : after.parked = before.parked
  waiting : after.waitingSenders = before.waitingSenders

variable {layout : Layout} {mailbox : Mailbox} {hop : Hop}

theorem enqueue_locked_result (layout : Layout) (mailbox : Mailbox) (hop : Hop) (policy : OverflowPolicy)
    (reason : MailboxFullReason) :
    (mailbox.enqueueLocked layout hop policy).2 = .error reason ↔ (mailbox.queue.enqueue layout hop policy).2 = .error reason := by
  unfold enqueueLocked
  rcases mailbox.queue.enqueue layout hop policy with ⟨queue, outcome⟩
  cases outcome with
  | error given => simp
  | ok effect => cases effect <;> simp

theorem refused_send_no_effect_iff (sound : mailbox.queue.Sound layout) :
    (∀ policy, (∀ reason, (mailbox.queue.enqueue layout hop policy).2 = .error reason →
        (mailbox.queue.enqueue layout hop policy).1 = mailbox.queue) ↔ ¬ mailbox.queue.Wipes layout policy hop) ∧
      ((∀ reason, (mailbox.push layout hop).2 = .error reason → Untouched mailbox (mailbox.push layout hop).1) ↔
        ¬ (mailbox.closed = false ∧ mailbox.awaits hop = false ∧ mailbox.queue.Wipes layout mailbox.config.overflow hop)) := by
  refine ⟨fun policy => MailboxQueue.refused_enqueue_iff sound policy, ?_⟩
  have same : Untouched mailbox mailbox := ⟨rfl, rfl, rfl⟩
  by_cases deep : hop.value.withinNestingLimit = false
  · rw [push, if_pos deep]
    refine iff_of_true (fun _ _ => same) ?_
    rintro ⟨_, _, _, _, shallow, _⟩
    rw [deep] at shallow
    cases shallow
  by_cases isClosed : mailbox.closed = true
  · rw [push, if_neg deep, if_pos isClosed]
    refine iff_of_true (fun _ _ => same) ?_
    rintro ⟨isOpen, _⟩
    rw [isClosed] at isOpen
    cases isOpen
  have isOpen := Bool.eq_false_iff.mpr isClosed
  rcases push_open layout deep isOpen with ⟨flow, _, awaited, handed⟩ | ⟨unawaited, enqueued⟩
  · rw [handed]
    refine iff_of_true (fun reason refused => by cases refused) ?_
    rintro ⟨_, unawaited, _⟩
    rw [awaited] at unawaited
    cases unawaited
  · obtain ⟨stats, frame⟩ := enqueue_locked_frame layout mailbox hop mailbox.config.overflow
    rw [enqueued, and_iff_right isOpen, and_iff_right unawaited, ← MailboxQueue.refused_enqueue_iff sound]
    simp only [enqueue_locked_result, frame]
    exact forall₂_congr fun _ _ => ⟨fun untouched => untouched.queue, fun queue => ⟨queue, rfl, rfl⟩⟩

def fullOne : Mailbox := ((withConfig MailboxRace.narrow).push .word ⟨.int 7, 0⟩).1

theorem full_mailbox_refuses_cleanly : fullOne.queue.Sound .word ∧ fullOne.queue.hops.length = 1 ∧
    (fullOne.push .word ⟨.unit, 1⟩).2 = .error .messageLimit ∧ Untouched fullOne (fullOne.push .word ⟨.unit, 1⟩).1 := by
  have sound : fullOne.queue.Sound .word := ⟨by decide, rfl, by decide, Or.inl (by decide)⟩
  have refused : (fullOne.push .word ⟨.unit, 1⟩).2 = .error .messageLimit := rfl
  have rejects : fullOne.config.overflow ≠ .dropOldest := by decide
  exact ⟨sound, rfl, refused, (refused_send_no_effect_iff sound).2.mpr (fun wiped => rejects wiped.2.2.1) _ refused⟩

def evicting : MailboxConfig := { MailboxRace.narrow with capacity := ⟨4, by decide⟩, overflow := .dropOldest }

def holdsOne : Mailbox := ((withConfig evicting).push .word ⟨.int 7, 0⟩).1

def largeHop : Hop := ⟨.list (List.replicate 40 .unit), 1⟩

theorem refused_send_empties_queue :
    (holdsOne.queue.enqueue .word largeHop .dropOldest).2 = .error .byteLimit ∧
      (holdsOne.queue.enqueue .word largeHop .dropOldest).1 ≠ holdsOne.queue ∧
      (holdsOne.push .word largeHop).2 = .error .byteLimit ∧
      ¬ Untouched holdsOne (holdsOne.push .word largeHop).1 := by
  have before : holdsOne.queue.hops.length = 1 := by decide
  have after : (holdsOne.push .word largeHop).1.queue.hops.length = 0 := by decide
  refine ⟨by rfl, fun same => ?_, by rfl, fun untouched => ?_⟩
  · have emptied : (holdsOne.queue.enqueue .word largeHop .dropOldest).1.hops.length = 0 := by decide
    rw [same, before] at emptied
    cases emptied
  · rw [untouched.queue, before] at after
    cases after

end Mailbox

end Byteflow
