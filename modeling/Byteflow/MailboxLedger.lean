import Byteflow.MailboxEffects

namespace Byteflow

open MailboxQueue List Transition

-- Hops that were counted in and neither counted out nor queued any more.
def Counters.Uncounted (counters : Counters) (queue : MailboxQueue) (lost : Nat) : Prop :=
  counters.enqueued = counters.dequeued + counters.droppedOldest + queue.hops.length + lost

def Intake.Counted (layout : Layout) (queue : MailboxQueue) : Intake → Prop
  | .plain => True
  | .evicting hop => queue.crowded layout (hop.value.memorySize layout) = true →
      queue.hops = [] ∨ (queue.without layout 1).crowded layout (hop.value.memorySize layout) = false
  | .forced hop => hop.value.withinNestingLimit = true ∧
      (queue.crowded layout (hop.value.memorySize layout) = true → queue.hops = [])

instance (layout : Layout) (queue : MailboxQueue) : ∀ intake : Intake, Decidable (intake.Counted layout queue)
  | .plain => isTrue trivial
  | .evicting _ | .forced _ => by
    unfold Intake.Counted
    infer_instance

section Step

variable {layout : Layout} {queue result : MailboxQueue} {counters counted : Counters} {intake : Intake} {got : List Hop}
  {count cost : Nat}

theorem bump_below {counter : Nat} (below : counter < 2 ^ 64 - 1) : bump counter = counter + 1 := Nat.min_eq_left below

theorem evicts_none_iff (evicts : queue.Evicts layout cost count) :
    count = 0 ↔ (queue.crowded layout cost = true → queue.hops = []) := by
  constructor
  · rintro rfl full
    rcases evicts.enough with all | room
    · exact length_eq_zero_iff.mp all.symm
    · rw [without_zero, full] at room
      cases room
  · intro spared
    by_contra some_
    have full := evicts.needed 0 (Nat.pos_of_ne_zero some_)
    rw [without_zero] at full
    have within := evicts.within
    rw [spared full] at within
    exact some_ (Nat.le_zero.mp within)

theorem evicts_one (evicts : queue.Evicts layout cost count)
    (counts : queue.crowded layout cost = true → queue.hops = [] ∨ (queue.without layout 1).crowded layout cost = false) :
    count ≤ 1 := by
  by_contra more
  have full := evicts.needed 0 (by omega)
  have stillFull := evicts.needed 1 (by omega)
  rw [without_zero] at full
  rcases counts full with nothing | room
  · have within := evicts.within
    rw [nothing] at within
    exact more (Nat.le_trans within (Nat.zero_le 1))
  · rw [stillFull] at room
    cases room

theorem replaced_counted_iff (sound : queue.Sound layout) (evicts : queue.Evicts layout cost count)
    (fits : (queue.without layout count).wouldExceedBytes layout cost = false) : count - 1 = 0 ↔
      (queue.crowded layout cost = true → queue.hops = [] ∨ (queue.without layout 1).crowded layout cost = false) := by
  have room : (queue.without layout count).crowded layout cost = false :=
    crowded_false_iff.mpr ⟨evicts_slot sound evicts, exceeds_false_iff.mp fits⟩
  constructor
  · intro few full
    match count with
    | 0 =>
      rw [without_zero, full] at room
      cases room
    | 1 => exact Or.inr room
  · intro counts
    have := evicts_one evicts counts
    omega

theorem refused_counted_iff (evicts : queue.Evicts layout cost count)
    (exceeds : (queue.without layout count).wouldExceedBytes layout cost = true) : count = 0 ↔
      (queue.crowded layout cost = true → queue.hops = [] ∨ (queue.without layout 1).crowded layout cost = false) := by
  have all := crowded_at_end evicts exceeds
  constructor
  · intro none_ _
    exact Or.inl (length_eq_zero_iff.mp (all.symm.trans none_))
  · intro counts
    have few := evicts_one evicts counts
    by_contra some_
    obtain rfl : count = 1 := by omega
    have full := evicts.needed 0 Nat.one_pos
    rw [without_zero] at full
    rcases counts full with nothing | room
    · rw [nothing] at all
      cases all
    · rw [MailboxQueue.crowded, exceeds, Bool.or_true] at room
      cases room

theorem pushed_length (count : Nat) (hop : Hop) (within : count ≤ queue.hops.length) :
    ((queue.without layout count).pushed layout hop).hops.length + count = queue.hops.length + 1 := by
  change (queue.hops.drop count ++ [hop]).length + count = _
  rw [length_append, length_drop, length_singleton]
  omega

theorem effect_uncounted (sound : queue.Sound layout) {lost : Nat} (uncounted : counters.Uncounted queue lost)
    (below : counters.enqueued < 2 ^ 64 - 1) (effect : QueueEffect layout queue counters intake result counted got) :
    ∃ more, counted.Uncounted result (lost + more) ∧ (more = 0 ↔ intake.Counted layout queue) := by
  have enqueues := bump_below below
  have dequeues : bump counters.dequeued = counters.dequeued + 1 := bump_below (by unfold Counters.Uncounted at uncounted; omega)
  have drops : bump counters.droppedOldest = counters.droppedOldest + 1 :=
    bump_below (by unfold Counters.Uncounted at uncounted; omega)
  unfold Counters.Uncounted at uncounted ⊢
  cases effect with
  | quiet => exact ⟨0, uncounted, iff_of_true rfl trivial⟩
  | handed hop =>
    refine ⟨0, ?_, iff_of_true rfl trivial⟩
    dsimp only
    rw [enqueues, dequeues]
    omega
  | queued hop free =>
    refine ⟨0, ?_, iff_of_true rfl trivial⟩
    have length : (queue.pushed layout hop).hops.length = queue.hops.length + 1 := length_append
    dsimp only
    rw [enqueues, length]
    omega
  | taken index hop found =>
    refine ⟨0, ?_, iff_of_true rfl trivial⟩
    have inside := (List.getElem?_eq_some_iff.mp found).1
    have length := length_eraseIdx_add_one inside
    dsimp only
    rw [dequeues]
    omega
  | replaced hop count evicts fits =>
    have length := @pushed_length layout queue count hop evicts.within
    refine ⟨count - 1, ?_, ?_⟩
    · dsimp only
      rw [enqueues]
      split
      · rw [drops]
        omega
      · omega
    · exact replaced_counted_iff sound evicts fits
  | refused hop count evicts exceeds =>
    refine ⟨count, ?_, ?_⟩
    · change counters.enqueued = _ + (queue.hops.drop count).length + _
      rw [length_drop]
      have := evicts.within
      omega
    · exact refused_counted_iff evicts exceeds
  | missed hop deep =>
    refine ⟨1, ?_, iff_of_false Nat.one_ne_zero fun counts => ?_⟩
    · dsimp only
      rw [enqueues]
      omega
    · rw [counts.1] at deep
      cases deep
  | forced hop count shallow evicts =>
    have length := @pushed_length layout queue count hop evicts.within
    refine ⟨count, ?_, ?_⟩
    · dsimp only
      rw [enqueues]
      omega
    · exact (evicts_none_iff evicts).trans (and_iff_right shallow).symm

theorem effect_enqueued (effect : QueueEffect layout queue counters intake result counted got) :
    counted.enqueued ≤ counters.enqueued + 1 := by
  have atMost : bump counters.enqueued ≤ counters.enqueued + 1 := Nat.min_le_left _ _
  cases effect with
  | quiet | taken | refused => exact Nat.le_succ _
  | handed | queued | replaced | missed | forced => exact atMost

end Step

namespace MailboxRace

variable (layout : Layout)

def Counted (race : MailboxRace) (event : MailboxEvent) : Prop :=
  race.mailbox.stats.enqueued < 2 ^ 64 - 1 ∧ (race.intake event).Counted layout race.mailbox.queue

instance (race : MailboxRace) (event : MailboxEvent) : Decidable (race.Counted layout event) := by
  unfold Counted
  infer_instance

def Balanced (race : MailboxRace) : Prop :=
  race.mailbox.stats.enqueued = race.mailbox.stats.dequeued + race.mailbox.stats.droppedOldest + race.mailbox.queue.hops.length

variable {layout : Layout} {race after : MailboxRace} {lost : Nat}

theorem uncounted_step (sound : race.mailbox.queue.Sound layout)
    (uncounted : race.mailbox.counters.Uncounted race.mailbox.queue lost) (below : race.mailbox.stats.enqueued < 2 ^ 64 - 1)
    {event : MailboxEvent} (stepped : race.next layout event = some after) :
    ∃ more, after.mailbox.counters.Uncounted after.mailbox.queue (lost + more) ∧ (more = 0 ↔ race.Counted layout event) := by
  obtain ⟨_, _, effect⟩ := next_takes sound stepped
  obtain ⟨more, counted, exact_⟩ := effect_uncounted sound uncounted below effect
  exact ⟨more, counted, exact_.trans (and_iff_right below).symm⟩

theorem uncounted_run (events : List MailboxEvent) (sound : race.mailbox.queue.Sound layout)
    (uncounted : race.mailbox.counters.Uncounted race.mailbox.queue lost)
    (below : AllMeet (next layout) (fun race _ => race.mailbox.stats.enqueued < 2 ^ 64 - 1) race events)
    (played : play (next layout) race events = some after) :
    ∃ more, after.mailbox.counters.Uncounted after.mailbox.queue (lost + more) ∧
      (more = 0 ↔ AllMeet (next layout) (Counted layout) race events) := by
  induction events generalizing race lost with
  | nil =>
    cases played
    exact ⟨0, uncounted, iff_of_true rfl trivial⟩
  | cons event rest ih =>
    simp only [play] at played
    simp only [AllMeet] at below ⊢
    cases stepped : race.next layout event with
    | none => simp [stepped] at played
    | some middle =>
      simp only [stepped] at played below ⊢
      obtain ⟨first, counted, exact_⟩ := uncounted_step sound uncounted below.1 stepped
      obtain ⟨later, final, exactRest⟩ := ih (sound_step sound stepped) counted below.2 played
      refine ⟨first + later, by rwa [Nat.add_assoc] at final, ?_⟩
      rw [← exact_, ← exactRest, Nat.add_eq_zero_iff]

-- An event counts at most one hop in, so a counter is full only after 2^64 - 1 events.
theorem below_run (events : List MailboxEvent) (sound : race.mailbox.queue.Sound layout)
    (short : race.mailbox.stats.enqueued + events.length < 2 ^ 64) :
    AllMeet (next layout) (fun race _ => race.mailbox.stats.enqueued < 2 ^ 64 - 1) race events := by
  induction events generalizing race with
  | nil => trivial
  | cons event rest ih =>
    rw [length_cons] at short
    refine ⟨by omega, ?_⟩
    cases stepped : race.next layout event with
    | none => trivial
    | some after =>
      obtain ⟨_, _, effect⟩ := next_takes sound stepped
      have counted : after.mailbox.stats.enqueued ≤ race.mailbox.stats.enqueued + 1 := effect_enqueued effect
      exact ih (sound_step sound stepped) (by omega)

theorem balanced_iff (uncounted : race.mailbox.counters.Uncounted race.mailbox.queue lost) :
    race.Balanced ↔ lost = 0 := by
  unfold Counters.Uncounted Mailbox.counters at uncounted
  unfold Balanced
  dsimp only at uncounted
  omega

theorem mailbox_stats_balance (layout : Layout) (config : MailboxConfig) (events : List MailboxEvent) (final : MailboxRace)
    (played : play (next layout) (initial config) events = some final) :
    (AllMeet (next layout) (Counted layout) (initial config) events → final.Balanced) ∧
      (events.length < 2 ^ 64 → final.Balanced → AllMeet (next layout) (Counted layout) (initial config) events) := by
  have sound := sound_initial layout config
  have start : (initial config).mailbox.counters.Uncounted (initial config).mailbox.queue 0 := rfl
  constructor
  · intro counted
    have below := all_meet_mono (fun _ _ => And.left) events _ counted
    obtain ⟨more, uncounted, exact_⟩ := uncounted_run events sound start below played
    exact (balanced_iff uncounted).mpr (by rw [exact_.mpr counted])
  · intro short balanced
    have below := below_run events sound (show 0 + events.length < 2 ^ 64 by omega)
    obtain ⟨more, uncounted, exact_⟩ := uncounted_run events sound start below played
    have none_ := (balanced_iff uncounted).mp balanced
    exact exact_.mp (by omega)

def fullOfTwo : MailboxConfig := { narrow with capacity := ⟨2, MailboxRace.two_slots_valid⟩, overflow := .dropOldest }

def countedEvents : List MailboxEvent :=
  [.hostSend .unit, .hostSend .unit, .hostSend .unit, .tryPopFilter .any, .pushSystem .unit, .parkFilter { id := 1 } .any]

def afterCounted (config : MailboxConfig) (events : List MailboxEvent) : MailboxRace :=
  (play (next .word) (initial config) events).getD (initial config)

theorem one_eviction_balances : play (next .word) (initial fullOfTwo) countedEvents = some (afterCounted fullOfTwo countedEvents) ∧
    (afterCounted fullOfTwo countedEvents).mailbox.stats.droppedOldest = 1 ∧ (afterCounted fullOfTwo countedEvents).Balanced := by
  have played : play (next .word) (initial fullOfTwo) countedEvents = some (afterCounted fullOfTwo countedEvents) := rfl
  have counted : AllMeet (next .word) (Counted .word) (initial fullOfTwo) countedEvents := by
    decide
  exact ⟨played, rfl, (mailbox_stats_balance .word fullOfTwo countedEvents _ played).1 counted⟩

-- A notice evicts without counting; one hop evicts two and counts one; a refused
-- hop empties the queue.
def evictingNotice : List MailboxEvent := [.pushSystem .unit, .pushSystem .unit]

def largeSend : List MailboxEvent := [.hostSend (.list (List.replicate 5 .unit)), .hostSend (.list (List.replicate 5 .unit)),
  .hostSend (.list (List.replicate 14 .unit))]

def refusedSend : List MailboxEvent := [.hostSend .unit, .hostSend (.list (List.replicate 40 .unit))]

def OutOfBalance (config : MailboxConfig) (events : List MailboxEvent) : Prop :=
  play (next .word) (initial config) events = some (afterCounted config events) ∧ ¬ (afterCounted config events).Balanced

theorem stats_out_of_balance :
    OutOfBalance narrow evictingNotice ∧ OutOfBalance fullOfTwo largeSend ∧ OutOfBalance fullOfTwo refusedSend := by
  refine ⟨⟨rfl, ?_⟩, ⟨rfl, ?_⟩, ⟨rfl, ?_⟩⟩
  · unfold Balanced
    decide
  · unfold Balanced
    decide
  · unfold Balanced
    decide

end MailboxRace

end Byteflow
