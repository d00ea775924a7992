import Byteflow.MailboxEffects
import Byteflow.AskTraffic

namespace Byteflow

open MailboxQueue List Transition

namespace MailboxQueue

variable (layout : Layout)

def evicted (queue : MailboxQueue) (cost : Nat) : List Hop :=
  queue.hops.take (queue.hops.length - (queue.evict layout cost).hops.length)

-- Each of these hops would leave room if everything older than it were gone.
def Spares (queue : MailboxQueue) (spared : List Hop) (cost : Nat) : Prop :=
  ∀ index hop, queue.hops[index]? = some hop → hop ∈ spared → (queue.without layout index).crowded layout cost = false

variable {layout : Layout} {queue : MailboxQueue}

theorem evicted_eq {cost count : Nat} (evicts : queue.Evicts layout cost count) :
    queue.evicted layout cost = queue.hops.take count := by
  obtain ⟨other, evictsOther, evicted⟩ := evict_spec layout queue cost
  obtain rfl := evicts_unique evictsOther evicts
  have fewer : queue.hops.length - (queue.hops.drop other).length = other := by
    rw [length_drop]
    have := evicts.within
    omega
  rw [MailboxQueue.evicted, evicted]
  exact congrArg queue.hops.take fewer

theorem uncrowded_mono (sound : queue.Sound layout) {cost fewer more : Nat} (le : fewer ≤ more)
    (room : (queue.without layout fewer).crowded layout cost = false) : (queue.without layout more).crowded layout cost = false := by
  obtain ⟨slot, word, fits⟩ := crowded_false_iff.mp room
  have hops : (queue.without layout more).hops.length ≤ (queue.without layout fewer).hops.length := by
    change (queue.hops.drop more).length ≤ (queue.hops.drop fewer).length
    rw [length_drop, length_drop]
    omega
  have bytes : (queue.without layout more).bytes ≤ (queue.without layout fewer).bytes := by
    have split := @total_split layout queue.hops
    have split' := @total_split layout (queue.hops.drop fewer) (more - fewer)
    rw [drop_drop, Nat.add_sub_cancel' le] at split'
    rw [without_charged sound more, without_charged sound fewer]
    change total layout (queue.hops.drop more) ≤ total layout (queue.hops.drop fewer)
    omega
  refine crowded_false_iff.mpr ⟨Nat.lt_of_le_of_lt hops slot, ?_, ?_⟩
  · exact Nat.le_trans (Nat.add_le_add_right bytes cost) word
  · exact Nat.le_trans (Nat.add_le_add_right bytes cost) fits

theorem spares_iff (sound : queue.Sound layout) (spared : List Hop) (cost : Nat) :
    (∀ hop ∈ queue.evicted layout cost, hop ∉ spared) ↔ queue.Spares layout spared cost := by
  obtain ⟨count, evicts, _⟩ := evict_spec layout queue cost
  rw [evicted_eq evicts]
  constructor
  · intro safe index hop found isSpared
    have behind : count ≤ index := by
      by_contra before
      exact safe hop (mem_of_getElem? ((List.getElem?_take_of_lt (Nat.not_le.mp before)).trans found)) isSpared
    rcases evicts.enough with all | room
    · have := (List.getElem?_eq_some_iff.mp found).1
      omega
    · exact uncrowded_mono sound behind room
  · intro spares hop member isSpared
    obtain ⟨index, found⟩ := List.mem_iff_getElem?.mp member
    have before : index < count := by
      have := (List.getElem?_eq_some_iff.mp found).1
      rw [length_take] at this
      omega
    rw [List.getElem?_take_of_lt before] at found
    have room := spares index hop found isSpared
    rw [evicts.needed index before] at room
    cases room

end MailboxQueue

def Intake.evicted (layout : Layout) (queue : MailboxQueue) : Intake → List Hop
  | .plain => []
  | .evicting hop => queue.evicted layout (hop.value.memorySize layout)
  | .forced hop => if hop.value.withinNestingLimit then queue.evicted layout (hop.value.memorySize layout) else []

structure SystemHops where
  race : MailboxRace
  accepted : List Hop

namespace SystemHops

variable (layout : Layout)

def initial (config : MailboxConfig) : SystemHops := ⟨.initial config, []⟩

-- force_push drops a hop that nests too deeply; every DOWN and EXIT hop is flat.
def acceptedBy (race : MailboxRace) : MailboxEvent → List Hop
  | .pushSystem value => if value.withinNestingLimit && !race.mailbox.closed then [⟨value, race.sent.length⟩] else []
  | _ => []

def next (state : SystemHops) (event : MailboxEvent) : Option SystemHops :=
  (state.race.next layout event).map fun race => ⟨race, acceptedBy state.race event ++ state.accepted⟩

def evictedBy (race : MailboxRace) (event : MailboxEvent) : List Hop := (race.intake event).evicted layout race.mailbox.queue

-- No accepted hop is so old that the arriving one needs its place.
def Spares (state : SystemHops) (event : MailboxEvent) : Prop :=
  match state.race.intake event with
  | .plain => True
  | .evicting hop => state.race.mailbox.queue.Spares layout state.accepted (hop.value.memorySize layout)
  | .forced hop => hop.value.withinNestingLimit = true →
      state.race.mailbox.queue.Spares layout state.accepted (hop.value.memorySize layout)

variable {layout : Layout} {state after : SystemHops}

theorem spares_event_iff (sound : state.race.mailbox.queue.Sound layout) (event : MailboxEvent) :
    (∀ hop ∈ evictedBy layout state.race event, hop ∉ state.accepted) ↔ state.Spares layout event := by
  unfold evictedBy Spares Intake.evicted
  cases state.race.intake event with
  | plain => exact iff_of_true nofun trivial
  | evicting hop => exact spares_iff sound state.accepted _
  | forced hop =>
    dsimp only
    by_cases shallow : hop.value.withinNestingLimit = true
    · rw [if_pos shallow, spares_iff sound]
      exact ⟨fun spares _ => spares, fun spares => spares shallow⟩
    · rw [if_neg shallow]
      exact iff_of_true nofun fun isShallow => absurd isShallow shallow

theorem effect_keeps {queue result : MailboxQueue} {counters counted : Counters} {intake : Intake} {got : List Hop}
    (effect : QueueEffect layout queue counters intake result counted got) (hop : Hop) (member : hop ∈ queue.hops) :
    hop ∈ intake.evicted layout queue ∨ hop ∈ result.hops ∨ hop ∈ got := by
  have split : ∀ count, hop ∈ queue.hops.take count ∨ hop ∈ queue.hops.drop count := fun count =>
    mem_append.mp ((take_append_drop count queue.hops).symm ▸ member)
  cases effect with
  | quiet | handed | missed => exact Or.inr (Or.inl member)
  | queued other free => exact Or.inr (Or.inl (mem_append_left _ member))
  | taken index other found =>
    obtain ⟨place, here⟩ := List.mem_iff_getElem?.mp member
    by_cases same : place = index
    · rw [same, found] at here
      exact Or.inr (Or.inr (mem_singleton.mpr (Option.some.inj here).symm))
    · exact Or.inr (Or.inl (mem_eraseIdx_iff_getElem?.mpr ⟨place, same, here⟩))
  | replaced other count evicts fits =>
    rw [Intake.evicted, evicted_eq evicts]
    exact (split count).imp_right fun kept => Or.inl (mem_append_left _ kept)
  | refused other count evicts exceeds =>
    rw [Intake.evicted, evicted_eq evicts]
    exact (split count).imp_right Or.inl
  | forced other count shallow evicts =>
    rw [Intake.evicted, if_pos shallow, evicted_eq evicts]
    exact (split count).imp_right fun kept => Or.inl (mem_append_left _ kept)

theorem accepted_arrives (sound : state.race.mailbox.queue.Sound layout) {event : MailboxEvent} {race : MailboxRace}
    (stepped : state.race.next layout event = some race) :
    ∀ hop ∈ acceptedBy state.race event, hop ∈ race.mailbox.queue.hops ∨ hop ∈ race.obtained := by
  intro hop member
  cases event with
  | pushSystem value =>
    simp only [acceptedBy, Bool.and_eq_true, Bool.not_eq_true'] at member
    split at member
    · rename_i taken
      obtain ⟨shallow, isOpen⟩ := taken
      obtain rfl := mem_singleton.mp member
      simp only [MailboxRace.next] at stepped
      rcases Mailbox.push_system_open layout isOpen ⟨value, state.race.sent.length⟩ with ⟨flow, _, _, handed⟩ | ⟨_, pushed⟩
      · rw [handed] at stepped
        cases stepped
        exact Or.inr (mem_append_right _ (mem_singleton_self _))
      · rw [pushed] at stepped
        cases stepped
        rcases force_push_case sound ⟨value, state.race.sent.length⟩ with ⟨deep, _⟩ | ⟨_, count, _, forced⟩
        · rw [shallow] at deep
          cases deep
        · refine Or.inl ?_
          change _ ∈ (state.race.mailbox.queue.forcePush layout _).hops
          rw [forced]
          exact mem_append_right _ (mem_singleton_self _)
    · cases member
  | _ => cases member

structure Kept (layout : Layout) (state : SystemHops) : Prop where
  sound : state.race.mailbox.queue.Sound layout
  stays : ∀ hop ∈ state.accepted, hop ∈ state.race.mailbox.queue.hops ∨ hop ∈ state.race.obtained

theorem kept_step (kept : Kept layout state) {event : MailboxEvent} (spares : state.Spares layout event)
    (stepped : state.next layout event = some after) : Kept layout after := by
  obtain ⟨race, raceStepped, rfl⟩ := Option.map_eq_some_iff.mp stepped
  obtain ⟨got, obtained, effect⟩ := MailboxRace.next_takes kept.sound raceStepped
  refine ⟨MailboxRace.sound_step kept.sound raceStepped, fun hop member => ?_⟩
  rcases mem_append.mp member with new | old
  · exact accepted_arrives kept.sound raceStepped hop new
  · rw [obtained]
    rcases kept.stays hop old with queued | received
    · rcases effect_keeps effect hop queued with gone | stays | taken
      · exact absurd old ((spares_event_iff kept.sound event).mpr spares hop gone)
      · exact Or.inl stays
      · exact Or.inr (mem_append_right _ taken)
    · exact Or.inr (mem_append_left _ received)

theorem accepted_system_hops_stay (layout : Layout) (config : MailboxConfig) (state : SystemHops)
    (reached : Reach (next layout) (Spares layout) (initial config) state) :
    (∀ hop ∈ state.accepted, hop ∈ state.race.mailbox.queue.hops ∨ hop ∈ state.race.obtained) ∧
      ∀ event, (∀ hop ∈ evictedBy layout state.race event, hop ∉ state.accepted) ↔ state.Spares layout event := by
  have start : Kept layout (initial config) := ⟨MailboxRace.sound_initial layout config, nofun⟩
  have kept := @reach_invariant _ _ _ _ _ _ (Kept layout) start (fun _ _ _ kept spares stepped => kept_step kept spares stepped) reached
  exact ⟨kept.stays, spares_event_iff kept.sound⟩

open MailboxRace (narrow)

def afterEvents (config : MailboxConfig) (events : List MailboxEvent) : SystemHops :=
  (play (next .word) (initial config) events).getD (initial config)

def downHop : Value := .message (Message.down 1 2 0)

def exitHop : Value := .message (Message.linkedExit 3 0)

def threeSlots : MailboxConfig := { MailboxRace.narrow with capacity := ⟨3, by decide⟩, overflow := .dropOldest }

def sparingEvents : List MailboxEvent := [.hostSend .unit, .hostSend .unit, .pushSystem downHop, .hostSend .unit]

theorem down_survives_overflow : Reach (next .word) (Spares .word) (initial threeSlots) (afterEvents threeSlots sparingEvents) ∧
    (evictedBy .word (afterEvents threeSlots (sparingEvents.take 3)).race (.hostSend .unit)).map (·.serial) = [0] ∧
    ∀ hop ∈ (afterEvents threeSlots sparingEvents).accepted,
      hop ∈ (afterEvents threeSlots sparingEvents).race.mailbox.queue.hops ∨
        hop ∈ (afterEvents threeSlots sparingEvents).race.obtained := by
  have played : play (next .word) (initial threeSlots) sparingEvents = some (afterEvents threeSlots sparingEvents) := rfl
  have spares : AllMeet (next .word) (Spares .word) (initial threeSlots) sparingEvents := by
    refine ⟨nofun, nofun, nofun, ?_, trivial⟩
    intro index hop found spared
    obtain rfl := mem_singleton.mp spared
    match index with
    | 0 | 1 => cases found
    | 2 => decide
    | _ + 3 => cases found
  have reached := reach_of_play sparingEvents _ spares played
  exact ⟨reached, by decide, (accepted_system_hops_stay .word threeSlots _ reached).1⟩

-- A second notice in a mailbox for one hop, and a plain send under DropOldest.
def lossyEvents : List MailboxEvent := [.pushSystem downHop, .pushSystem exitHop]

def slidingEvents : List MailboxEvent := [.pushSystem downHop, .hostSend .unit, .hostSend .unit, .hostSend .unit]

def LosesDown (config : MailboxConfig) (events : List MailboxEvent) : Prop :=
  play (next .word) (initial config) events = some (afterEvents config events) ∧
    ∃ hop ∈ (afterEvents config events).accepted, hop.value.asMessage = some (Message.down 1 2 0) ∧
      hop ∉ (afterEvents config events).race.mailbox.queue.hops ∧ hop ∉ (afterEvents config events).race.obtained

theorem down_lost_to_overflow : LosesDown narrow lossyEvents ∧ LosesDown threeSlots slidingEvents := by
  have absent : ∀ {hops : List Hop} {hop : Hop}, hop.serial ∉ hops.map (·.serial) → hop ∉ hops := fun missing member =>
    missing (mem_map_of_mem member)
  refine ⟨⟨rfl, ⟨downHop, 0⟩, ?_, rfl, absent (by decide), absent (by decide)⟩,
    ⟨rfl, ⟨downHop, 0⟩, ?_, rfl, absent (by decide), absent (by decide)⟩⟩
  · exact mem_cons_of_mem _ mem_cons_self
  · exact mem_cons_self

end SystemHops

end Byteflow
