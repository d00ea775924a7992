import Byteflow.MailboxRace

namespace Byteflow

open List Transition

def Hop.sender (hop : Hop) : Option FlowId := hop.value.asMessage.map (·.sender)

namespace MailboxRace

def fromSender (sender : FlowId) (hops : List Hop) : List Hop := hops.filter (·.sender = some sender)

-- Flows send, and the owner only uses the unfiltered Receive.
def PlainReceive : MailboxEvent → Prop
  | .hostSend _ | .pushSystem _ => False
  | .tryPopFilter filter | .parkFilter _ filter => filter.isAny = true
  | .send .. | .parkSender _ | .admitWaitingSender | .takeWaitingSender _ | .takeParkedAt _ => True

instance : ∀ event, Decidable (PlainReceive event)
  | .hostSend _ | .pushSystem _ => isFalse id
  | .tryPopFilter filter | .parkFilter _ filter => inferInstanceAs (Decidable (filter.isAny = true))
  | .send .. | .parkSender _ | .admitWaitingSender | .takeWaitingSender _ | .takeParkedAt _ => isTrue trivial

def pending (race : MailboxRace) : List WaitingSender := race.mailbox.waitingSenders ++ race.refused

-- Every hop of the run that is obtained or still under way, in the order in
-- which the receiver gets them when nothing overtakes.
def trail (race : MailboxRace) : List Hop :=
  (race.obtained ++ race.mailbox.queue.hops) ++ race.pending.map (·.message)

structure OneEach (waiters : List WaitingSender) : Prop where
  own : ∀ waiter ∈ waiters, waiter.message.sender = some waiter.flow.id
  distinct : (waiters.map (·.flow.id)).Nodup

def AnyWakes (mailbox : Mailbox) : Prop := mailbox.parked.isSome → ∀ hop, mailbox.awaits hop = true

structure InOrder (race : MailboxRace) : Prop where
  settled : Settled race.mailbox
  awake : AnyWakes race.mailbox
  rejects : race.mailbox.config.overflow = .reject
  waiting : OneEach race.pending
  trail : ∀ sender, (fromSender sender race.trail).Sublist (fromSender sender race.sent)
  serials : race.sent.map (·.serial) = List.range race.sent.length

section Waiters

variable {waiters rest : List WaitingSender} {waiter : WaitingSender}

theorem one_each_perm (one : OneEach waiters) (perm : waiters.Perm rest) : OneEach rest :=
  ⟨fun other member => one.own other (perm.mem_iff.mpr member), (perm.map _).nodup_iff.mp one.distinct⟩

theorem one_each_sublist (one : OneEach waiters) (fewer : rest.Sublist waiters) : OneEach rest :=
  ⟨fun other member => one.own other (fewer.subset member), one.distinct.sublist (fewer.map _)⟩

theorem one_each_cons (one : OneEach waiters) (own : waiter.message.sender = some waiter.flow.id)
    (free : ∀ other ∈ waiters, other.flow.id ≠ waiter.flow.id) : OneEach (waiter :: waiters) := by
  refine ⟨fun other member => ?_, nodup_cons.mpr ⟨fun taken => ?_, one.distinct⟩⟩
  · rcases mem_cons.mp member with rfl | old
    · exact own
    · exact one.own other old
  · obtain ⟨other, member, same⟩ := mem_map.mp taken
    exact free other member same

theorem none_from_idle (one : OneEach waiters) {sender : FlowId} (idle : ∀ other ∈ waiters, other.flow.id ≠ sender) :
    fromSender sender (waiters.map (·.message)) = [] := by
  apply filter_eq_nil_iff.mpr
  intro hop member
  obtain ⟨other, isOther, rfl⟩ := mem_map.mp member
  rw [one.own other isOther]
  simpa using idle other isOther

theorem others_silent (one : OneEach (waiter :: rest)) : fromSender waiter.flow.id (rest.map (·.message)) = [] := by
  apply none_from_idle (one_each_sublist one (sublist_cons_self waiter rest))
  intro other member same
  have distinct := (nodup_cons.mp one.distinct).1
  exact distinct (mem_map.mpr ⟨other, member, same⟩)

theorem from_sender_front (one : OneEach (waiter :: (waiters ++ rest))) (sender : FlowId) :
    fromSender sender ((waiters ++ waiter :: rest).map (·.message)) =
      fromSender sender (waiter.message :: (waiters ++ rest).map (·.message)) := by
  by_cases same : sender = waiter.flow.id
  · subst same
    have silent := others_silent one
    simp only [fromSender, map_append, filter_append, append_eq_nil_iff] at silent
    simp [fromSender, filter_cons, silent.1, silent.2]
  · have other : ¬ waiter.message.sender = some sender := by
      rw [one.own waiter mem_cons_self]
      intro eq
      exact same (Option.some.inj eq).symm
    simp [fromSender, other]

end Waiters

section Steps

variable {layout : Layout} {race after : MailboxRace}

theorem from_sender_append (sender : FlowId) (front back : List Hop) :
    fromSender sender (front ++ back) = fromSender sender front ++ fromSender sender back :=
  filter_append front back

theorem sleeping_queue_empty {mailbox : Mailbox} (settled : Settled mailbox) (awake : AnyWakes mailbox)
    (parked : mailbox.parked.isSome) : mailbox.queue.hops = [] := by
  cases hops : mailbox.queue.hops with
  | nil => rfl
  | cons hop rest =>
    have unawaited := settled hop (by simp [hops])
    rw [awake parked hop] at unawaited
    cases unawaited

variable (ordered : InOrder race)

include ordered

theorem in_order_quiet (settled : Settled after.mailbox) (awake : AnyWakes after.mailbox)
    (config : after.mailbox.config = race.mailbox.config) (sent : after.sent = race.sent) (waiting : OneEach after.pending)
    (fewer : ∀ sender, (fromSender sender after.trail).Sublist (fromSender sender race.trail)) : InOrder after := by
  refine ⟨settled, awake, config ▸ ordered.rejects, waiting, fun sender => ?_, sent ▸ ordered.serials⟩
  rw [sent]
  exact (fewer sender).trans (ordered.trail sender)

theorem in_order_sends (hop : Hop) (serial : hop.serial = race.sent.length)
    (settled : Settled after.mailbox) (awake : AnyWakes after.mailbox)
    (config : after.mailbox.config = race.mailbox.config) (sent : after.sent = race.sent ++ [hop])
    (waiting : OneEach after.pending)
    (last : ∀ sender, (fromSender sender after.trail).Sublist (fromSender sender (race.trail ++ [hop]))) : InOrder after := by
  refine ⟨settled, awake, config ▸ ordered.rejects, waiting, fun sender => ?_, ?_⟩
  · rw [sent, from_sender_append]
    refine (last sender).trans ?_
    rw [from_sender_append]
    exact (ordered.trail sender).append (List.Sublist.refl _)
  · rw [sent, map_append, length_append, ordered.serials, length_singleton, range_succ]
    simp [serial]

omit ordered in
theorem any_wakes_same {before mailbox : Mailbox} (awake : AnyWakes before) (parked : mailbox.parked = before.parked)
    (filter : mailbox.parkedFilter = before.parkedFilter) : AnyWakes mailbox := by
  intro isParked hop
  rw [parked] at isParked
  have same : mailbox.awaits hop = before.awaits hop := by simp only [Mailbox.awaits, parked, filter]
  rw [same]
  exact awake isParked hop

omit ordered in
theorem any_wakes_unparked {mailbox : Mailbox} (unparked : mailbox.parked = none) : AnyWakes mailbox := by
  intro isParked
  rw [unparked] at isParked
  cases isParked

theorem idle_pending {id : FlowId} (idle : race.busy id = false) :
    (∀ waiter ∈ race.pending, waiter.flow.id ≠ id) ∧ fromSender id (race.pending.map (·.message)) = [] := by
  have free : ∀ waiter ∈ race.pending, waiter.flow.id ≠ id := by
    intro waiter member same
    simp only [busy, Bool.or_eq_false_iff, List.any_eq_false] at idle
    rcases mem_append.mp member with waits | refused
    · exact idle.2 waiter waits (by simpa using same)
    · exact idle.1 waiter refused (by simpa using same)
  exact ⟨free, none_from_idle ordered.waiting free⟩

theorem newest_last {hop : Hop} {id : FlowId} (own : hop.sender = some id) (idle : race.busy id = false) (sender : FlowId) :
    fromSender sender ((race.obtained ++ (race.mailbox.queue.hops ++ [hop])) ++ race.pending.map (·.message)) =
      fromSender sender (race.trail ++ [hop]) := by
  by_cases same : sender = id
  · subst same
    have silent := (idle_pending ordered idle).2
    simp only [trail, from_sender_append, silent, append_assoc, nil_append, append_nil]
  · have other : fromSender sender [hop] = [] := by
      have differs : ¬ hop.sender = some sender := by
        rw [own]
        intro eq
        exact same (Option.some.inj eq).symm
      simp [fromSender, differs]
    simp only [trail, from_sender_append, other, append_assoc, nil_append, append_nil]

omit ordered in
theorem deliver_cases (layout : Layout) (rejects : race.mailbox.config.overflow = .reject) (hop : Hop) (flow : FlowBox) :
    race.deliver layout hop (some flow) = { race with sent := race.sent ++ [hop] } ∨
      (∃ stats, race.deliver layout hop (some flow) = { race with
        mailbox := { race.mailbox with stats := stats }
        sent := race.sent ++ [hop]
        refused := race.refused ++ [⟨flow, hop⟩] }) ∨
      (race.mailbox.parked.isSome ∧ race.deliver layout hop (some flow) = { race with
        mailbox := race.mailbox.handOff
        sent := race.sent ++ [hop]
        obtained := race.obtained ++ [hop] }) ∨
      ∃ queue stats, queue.hops = race.mailbox.queue.hops ++ [hop] ∧ race.deliver layout hop (some flow) = { race with
        mailbox := { race.mailbox with queue := queue, stats := stats }
        sent := race.sent ++ [hop] } := by
  rcases Mailbox.push_cases layout race.mailbox hop with ⟨reason, pushed⟩ | ⟨receiver, parked, _, pushed⟩ | ⟨_, pushed⟩
  · cases reason with
    | closed => exact Or.inl (by simp only [deliver, pushed])
    | messageLimit | byteLimit => exact Or.inr (Or.inl ⟨race.mailbox.stats, by simp only [deliver, pushed]⟩)
  · exact Or.inr (Or.inr (Or.inl ⟨by simp [parked], by simp only [deliver, pushed]⟩))
  · rw [rejects] at pushed
    obtain ⟨stats, frame⟩ := Mailbox.enqueue_locked_frame layout race.mailbox hop .reject
    cases outcome : race.mailbox.enqueueLocked layout hop .reject with
    | mk mailbox result =>
      rw [outcome] at frame pushed
      dsimp only at frame
      cases result with
      | ok delivery =>
        obtain ⟨rfl, _, hops⟩ := Mailbox.enqueue_locked_reject_ok (congrArg Prod.snd outcome)
        exact Or.inr (Or.inr (Or.inr ⟨_, stats, hops, by simp only [deliver, pushed, frame]⟩))
      | error reason =>
        obtain ⟨unclosed, same⟩ := Mailbox.enqueue_locked_reject_error (congrArg Prod.snd outcome)
        rw [same] at frame
        cases reason with
        | closed => exact absurd rfl unclosed
        | messageLimit | byteLimit => exact Or.inr (Or.inl ⟨stats, by simp only [deliver, pushed, frame]⟩)

theorem deliver_in_order (flow : FlowBox) (hop : Hop) (own : hop.sender = some flow.id)
    (serial : hop.serial = race.sent.length) (idle : race.busy flow.id = false) :
    InOrder (race.deliver layout hop (some flow)) := by
  have settled : Settled (race.deliver layout hop (some flow)).mailbox := deliver_settled ordered.settled hop (some flow)
  rcases deliver_cases layout ordered.rejects hop flow with
    same | ⟨stats, same⟩ | ⟨parked, same⟩ | ⟨queue, stats, hops, same⟩
  · rw [same] at settled ⊢
    refine in_order_sends ordered hop serial settled ordered.awake rfl rfl ordered.waiting fun sender => ?_
    change (fromSender sender race.trail).Sublist _
    rw [from_sender_append]
    exact sublist_append_left _ _
  · rw [same] at settled ⊢
    refine in_order_sends ordered hop serial settled (any_wakes_same ordered.awake rfl rfl) rfl rfl ?_ fun sender => ?_
    · have one : OneEach (⟨flow, hop⟩ :: race.pending) := one_each_cons ordered.waiting own (idle_pending ordered idle).1
      refine one_each_perm one ?_
      simp only [pending, ← append_assoc]
      exact (perm_append_singleton _ _).symm
    · simp only [trail, pending, map_append, append_assoc, map_cons, map_nil]
      exact List.Sublist.refl _
  · have empty := sleeping_queue_empty ordered.settled ordered.awake parked
    rw [same] at settled ⊢
    refine in_order_sends ordered hop serial settled (any_wakes_unparked rfl) rfl rfl ordered.waiting fun sender => ?_
    have last := newest_last ordered own idle sender
    rw [← last]
    simp only [trail, pending, Mailbox.handOff, Mailbox.countDequeued, Mailbox.countEnqueued, empty, nil_append,
      append_assoc]
    exact List.Sublist.refl _
  · rw [same] at settled ⊢
    refine in_order_sends ordered hop serial settled (any_wakes_same ordered.awake rfl rfl) rfl rfl ordered.waiting
      fun sender => ?_
    rw [← newest_last ordered own idle sender]
    simp only [trail, pending, hops]
    exact List.Sublist.refl _

theorem pop_in_order (queue : MailboxQueue) (stats : MailboxStats) (hop : Hop)
    (hops : race.mailbox.queue.hops = hop :: queue.hops) : InOrder { race with
      mailbox := { race.mailbox with queue := queue, stats := stats }
      obtained := race.obtained ++ [hop] } := by
  refine in_order_quiet ordered (fun other member => ?_) (any_wakes_same ordered.awake rfl rfl) rfl rfl ordered.waiting
    fun sender => ?_
  · exact ordered.settled other (by rw [hops]; exact mem_cons_of_mem hop member)
  · simp only [trail, pending, hops, append_assoc, singleton_append]
    exact List.Sublist.refl _

theorem try_pop_in_order : InOrder { race with
    mailbox := (race.mailbox.tryPopFilter layout .any).1
    obtained := race.obtained ++ (race.mailbox.tryPopFilter layout .any).2.toList } := by
  unfold Mailbox.tryPopFilter
  cases taken : race.mailbox.queue.take layout .any with
  | mk queue hop =>
    cases hop with
    | none => simpa using ordered
    | some hop => exact pop_in_order ordered queue _ hop (MailboxQueue.take_any_some taken)

theorem park_filter_in_order (flow : FlowBox)
    (stepped : race.next layout (.parkFilter flow .any) = some after) : InOrder after := by
  have settled : Settled after.mailbox := settled_step ordered.settled (.parkFilter flow .any) trivial stepped
  simp only [next] at stepped
  split at stepped
  · cases stepped
  · unfold Mailbox.parkFilter at stepped
    cases taken : race.mailbox.queue.take layout .any with
    | mk queue hop =>
      rw [taken] at stepped
      cases hop with
      | none =>
        cases stepped
        refine in_order_quiet ordered settled (fun _ hop => ?_) rfl rfl ordered.waiting fun sender => List.Sublist.refl _
        rfl
      | some hop =>
        cases stepped
        exact pop_in_order ordered queue _ hop (MailboxQueue.take_any_some taken)

omit ordered in
theorem erase_waiter {index : Nat} {waiters : List WaitingSender} {waiter : WaitingSender}
    (found : waiters[index]? = some waiter) :
    ∃ front back, waiters = front ++ waiter :: back ∧ waiters.eraseIdx index = front ++ back := by
  obtain ⟨inside, rfl⟩ := List.getElem?_eq_some_iff.mp found
  exact ⟨waiters.take index, waiters.drop (index + 1), by simp, eraseIdx_eq_take_drop_succ waiters index⟩

-- A refused sender's hop moves in front of the pending ones or is given up. It
-- passes hops of other senders only.
theorem park_sender_in_order {index : Nat} {waiter : WaitingSender} (found : race.refused[index]? = some waiter)
    (noRoom : race.mailbox.awaits waiter.message → race.mailbox.queue.hasRoom layout waiter.message = false) :
    InOrder { race with
      mailbox := (race.mailbox.parkSender layout waiter.flow waiter.message).1
      refused := race.refused.eraseIdx index } := by
  have settled := park_sender_settled ordered.settled waiter.flow waiter.message noRoom
  obtain ⟨front, back, whole, erased⟩ := erase_waiter found
  have one : OneEach (waiter :: ((race.mailbox.waitingSenders ++ front) ++ back)) := by
    refine one_each_perm ordered.waiting ?_
    rw [pending, whole, ← append_assoc]
    exact perm_middle
  have others : OneEach (race.mailbox.waitingSenders ++ race.refused.eraseIdx index) := by
    rw [erased, ← append_assoc]
    exact one_each_sublist one (sublist_cons_self _ _)
  have moved : ∀ sender, fromSender sender race.trail = fromSender sender ((race.obtained ++ race.mailbox.queue.hops) ++
      waiter.message :: ((race.mailbox.waitingSenders ++ front) ++ back).map (·.message)) := by
    intro sender
    rw [trail, from_sender_append, from_sender_append sender _ (waiter.message :: _), ← from_sender_front one, pending,
      whole, append_assoc]
  rcases Mailbox.park_sender_cases layout race.mailbox waiter.flow waiter.message with
    ⟨_, _, same⟩ | ⟨_, same⟩ | ⟨_, same⟩ <;> rw [same] at settled ⊢
  · refine in_order_quiet ordered settled ordered.awake rfl rfl others fun sender => ?_
    rw [moved, trail, pending, erased, ← append_assoc]
    exact ((List.Sublist.refl _).append (sublist_cons_self _ _)).filter _
  · refine in_order_quiet ordered settled (any_wakes_same ordered.awake rfl rfl) rfl rfl others fun sender => ?_
    rw [moved]
    change (fromSender sender ((race.obtained ++ (race.mailbox.queue.hops ++ [waiter.message])) ++
      (race.mailbox.waitingSenders ++ race.refused.eraseIdx index).map (·.message))).Sublist _
    rw [erased]
    simp only [append_assoc, singleton_append]
    exact List.Sublist.refl _
  · have placed : OneEach (waiter :: (race.mailbox.waitingSenders ++ (front ++ back))) := by
      rwa [append_assoc] at one
    refine in_order_quiet ordered settled (any_wakes_same ordered.awake rfl rfl) rfl rfl ?_ fun sender => ?_
    · change OneEach ((race.mailbox.waitingSenders ++ [waiter]) ++ race.refused.eraseIdx index)
      rw [erased, append_assoc]
      exact one_each_perm placed perm_middle.symm
    · change (fromSender sender ((race.obtained ++ race.mailbox.queue.hops) ++
        ((race.mailbox.waitingSenders ++ [waiter]) ++ race.refused.eraseIdx index).map (·.message))).Sublist _
      rw [moved, from_sender_append, from_sender_append sender _ (waiter.message :: _), erased, append_assoc,
        singleton_append, from_sender_front placed, append_assoc]

theorem admit_in_order (noRoom : race.NoRoomForAwaited layout .admitWaitingSender) :
    InOrder { race with mailbox := (race.mailbox.admitWaitingSender layout).1 } := by
  have settled := admit_waiting_sender_settled ordered.settled noRoom
  have waiting := ordered.waiting
  rcases Mailbox.admit_waiting_sender_cases layout race.mailbox with
    ⟨_, same⟩ | ⟨waiter, rest, queued, ⟨_, same⟩ | ⟨_, same⟩ | ⟨_, _, _, same⟩⟩ <;> rw [same] at settled ⊢
  · exact ordered
  · rw [pending, queued] at waiting
    have fewer : (rest ++ race.refused).Sublist (waiter :: rest ++ race.refused) := sublist_cons_self _ _
    refine in_order_quiet ordered settled (any_wakes_same ordered.awake rfl rfl) rfl rfl (one_each_sublist waiting fewer)
      fun sender => ?_
    rw [trail, trail, pending, pending, queued]
    exact ((List.Sublist.refl _).append (fewer.map _)).filter _
  · rw [pending, queued] at waiting
    refine in_order_quiet ordered settled (any_wakes_same ordered.awake rfl rfl) rfl rfl
      (one_each_sublist waiting (sublist_cons_self _ _)) fun sender => ?_
    simp only [trail, pending, Mailbox.countEnqueued, MailboxQueue.pushed, queued, append_assoc, cons_append, nil_append, map_cons]
    exact List.Sublist.refl _
  · exact in_order_quiet ordered settled (any_wakes_same ordered.awake rfl rfl) rfl rfl waiting fun _ => List.Sublist.refl _

theorem take_waiting_sender_in_order (sender : FlowId) :
    InOrder { race with mailbox := (race.mailbox.takeWaitingSender sender).1 } := by
  unfold Mailbox.takeWaitingSender
  cases race.mailbox.waitingSenders.findIdx? (·.flow.id = sender) with
  | none => exact ordered
  | some position =>
    have fewer : (race.mailbox.waitingSenders.eraseIdx position ++ race.refused).Sublist race.pending :=
      (eraseIdx_sublist _ _).append (List.Sublist.refl _)
    refine in_order_quiet ordered ordered.settled ordered.awake rfl rfl (one_each_sublist ordered.waiting fewer) fun other => ?_
    exact ((List.Sublist.refl _).append (fewer.map _)).filter _

theorem take_parked_at_in_order (epoch : UInt64) :
    InOrder { race with mailbox := (race.mailbox.takeParkedAt epoch).1 } := by
  have settled := take_parked_at_settled ordered.settled epoch
  revert settled
  unfold Mailbox.takeParkedAt
  split
  · exact fun _ => ordered
  · cases race.mailbox.parked with
    | none => exact fun _ => ordered
    | some flow =>
      intro settled
      exact in_order_quiet ordered settled (any_wakes_unparked rfl) rfl rfl ordered.waiting fun _ => List.Sublist.refl _

theorem in_order_step (event : MailboxEvent) (plain : PlainReceive event)
    (noRoom : race.NoRoomForAwaited layout event) (stepped : race.next layout event = some after) : InOrder after := by
  cases event with
  | hostSend | pushSystem => exact plain.elim
  | send flow message =>
    simp only [next] at stepped
    by_cases busy : race.busy flow.id = true
    · simp [busy] at stepped
    · simp only [busy, Bool.false_eq_true, if_false, Option.some.injEq] at stepped
      subst stepped
      exact deliver_in_order ordered flow _ rfl rfl (by simpa using busy)
  | parkSender index =>
    simp only [next] at stepped
    cases found : race.refused[index]? with
    | none => simp [found] at stepped
    | some waiter =>
      simp only [found, Option.some.injEq] at stepped
      subst stepped
      exact park_sender_in_order ordered found (noRoom waiter found)
  | tryPopFilter filter =>
    cases filter with
    | any =>
      cases stepped
      exact try_pop_in_order ordered
    | _ => cases plain
  | parkFilter flow filter =>
    cases filter with
    | any => exact park_filter_in_order ordered flow stepped
    | _ => cases plain
  | admitWaitingSender =>
    cases stepped
    exact admit_in_order ordered noRoom
  | takeWaitingSender sender =>
    cases stepped
    exact take_waiting_sender_in_order ordered sender
  | takeParkedAt epoch =>
    cases stepped
    exact take_parked_at_in_order ordered epoch

end Steps

theorem initial_in_order (config : MailboxConfig) (rejects : config.overflow = .reject) : InOrder (initial config) := by
  refine ⟨fun _ none => ?_, any_wakes_unparked rfl, rejects, ⟨fun _ none => ?_, nodup_nil⟩,
    fun _ => List.Sublist.refl _, rfl⟩
  all_goals cases none

theorem sent_nodup {race : MailboxRace} (ordered : InOrder race) : race.sent.Nodup := by
  apply List.Nodup.of_map (·.serial)
  rw [ordered.serials]
  exact nodup_range

-- sent lists the hops in the order of their sends, each with its own serial.
theorem obtained_in_sending_order (layout : Layout) (config : MailboxConfig) (rejects : config.overflow = .reject)
    (race : MailboxRace)
    (reached : Reach (next layout) (fun race event => PlainReceive event ∧ race.NoRoomForAwaited layout event)
      (initial config) race) (sender : FlowId) :
    (fromSender sender race.obtained).Sublist (fromSender sender race.sent) ∧ (fromSender sender race.obtained).Nodup := by
  have ordered : InOrder race := by
    refine reach_invariant (initial_in_order config rejects) ?_ reached
    intro before event after ordered allowed stepped
    exact in_order_step ordered event allowed.1 allowed.2 stepped
  have front : (fromSender sender race.obtained).Sublist (fromSender sender race.trail) := by
    rw [trail, append_assoc, from_sender_append]
    exact sublist_append_left _ _
  have sublist := front.trans (ordered.trail sender)
  exact ⟨sublist, ((sent_nodup ordered).filter _).sublist sublist⟩

def turnEvents : List MailboxEvent :=
  [.parkFilter { id := 1 } .any, .send { id := 2 } ping, .send { id := 2 } ping, .send { id := 3 } ping, .parkSender 0,
    .tryPopFilter .any, .admitWaitingSender, .tryPopFilter .any]

theorem turns_keep_order : ∃ race, Reach (next .word)
      (fun race event => PlainReceive event ∧ race.NoRoomForAwaited .word event) (initial narrow) race ∧
    race.obtained.map (·.serial) = [0, 1, 2] ∧
    (fromSender 2 race.obtained).Sublist (fromSender 2 race.sent) ∧ (fromSender 2 race.obtained).Nodup := by
  obtain ⟨race, played, serials⟩ : ∃ race, play (next .word) (initial narrow) turnEvents = some race ∧
      race.obtained.map (·.serial) = [0, 1, 2] := ⟨_, rfl, rfl⟩
  have reached : Reach (next .word) (fun race event => PlainReceive event ∧ race.NoRoomForAwaited .word event)
      (initial narrow) race := reach_of_play turnEvents (initial narrow) (by decide) played
  exact ⟨race, reached, serials, obtained_in_sending_order .word narrow rfl race reached 2⟩

-- The hop that was queued behind the sleeping receiver is overtaken by the
-- next hop of its sender, which is handed off.
def overtakingEvents : List MailboxEvent :=
  [.send { id := 2 } ping, .send { id := 3 } ping, .tryPopFilter .any, .parkFilter { id := 1 } .any, .parkSender 0,
    .send { id := 3 } ping, .tryPopFilter .any]

theorem handoff_overtakes_queue : ∃ race, Reach (next .word) (fun _ event => PlainReceive event) (initial narrow) race ∧
    (fromSender 3 race.sent).map (·.serial) = [1, 2] ∧ (fromSender 3 race.obtained).map (·.serial) = [2, 1] ∧
    ¬ (fromSender 3 race.obtained).Sublist (fromSender 3 race.sent) := by
  obtain ⟨race, played, sent, obtained⟩ : ∃ race,
      play (next .word) (initial narrow) overtakingEvents = some race ∧
      (fromSender 3 race.sent).map (·.serial) = [1, 2] ∧ (fromSender 3 race.obtained).map (·.serial) = [2, 1] :=
    ⟨_, rfl, by decide, by decide⟩
  refine ⟨race, reach_of_play overtakingEvents (initial narrow) (by decide) played, sent, obtained, fun inOrder => ?_⟩
  have serials := inOrder.map (·.serial)
  rw [sent, obtained] at serials
  exact absurd serials (by decide)

end MailboxRace

end Byteflow
