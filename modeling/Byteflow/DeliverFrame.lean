import Byteflow.Dedup
import Byteflow.Mailbox
import Byteflow.RemoteFrameExact
import Byteflow.Transition

namespace Byteflow

open List Function Transition

-- The mailboxes of a node. arrivals numbers the hops, so that every hop in a
-- queue is older than the one that is pushed next.
structure MailboxDirectory where
  boxes : FlowId → Option Mailbox
  arrivals : Nat
  older : ∀ id mailbox, boxes id = some mailbox → ∀ hop ∈ mailbox.queue.hops, hop.serial < arrivals

namespace MailboxDirectory

variable (layout : Layout)

def next (directory : MailboxDirectory) (value : Value) : Hop := ⟨value, directory.arrivals⟩

theorem pushed_older (directory : MailboxDirectory) (target : FlowId) (value : Value) {mailbox : Mailbox}
    (found : directory.boxes target = some mailbox) :
    ∀ id box, update directory.boxes target (some (mailbox.push layout (directory.next value)).1) id = some box →
      ∀ hop ∈ box.queue.hops, hop.serial < directory.arrivals + 1 := by
  intro id box here hop member
  by_cases same : id = target
  · subst same
    rw [update_self] at here
    cases here
    have old : ∀ hop ∈ mailbox.queue.hops, hop.serial < directory.arrivals + 1 :=
      fun hop member => Nat.lt_succ_of_lt (directory.older id mailbox found hop member)
    rcases Mailbox.push_outcome layout mailbox (directory.next value) with
      ⟨kept, _, front, hops, _⟩ | ⟨flow, _, handed⟩ | ⟨front, _⟩
    · rw [hops] at member
      rcases mem_append.mp member with kept_ | new
      · exact old hop (front.subset kept_)
      · rw [mem_singleton.mp new]
        exact Nat.lt_succ_self _
    · rw [handed] at member
      exact old hop member
    · exact old hop (front.subset member)
  · rw [update_of_ne same] at here
    exact Nat.lt_succ_of_lt (directory.older id box here hop member)

-- lookup of the target and push. None is an unknown flow.
def push (directory : MailboxDirectory) (target : FlowId) (value : Value) :
    MailboxDirectory × Option (Except MailboxFullReason Delivery) :=
  match found : directory.boxes target with
  | none => (directory, none)
  | some mailbox =>
    let pushed := mailbox.push layout (directory.next value)
    (⟨update directory.boxes target (some pushed.1), directory.arrivals + 1,
      directory.pushed_older layout target value found⟩, some pushed.2)

theorem push_unknown {directory : MailboxDirectory} {target : FlowId} (unknown : directory.boxes target = none)
    (value : Value) : directory.push layout target value = (directory, none) := by
  rw [push]
  split
  · rfl
  · rename_i mailbox found
    rw [unknown] at found
    cases found

theorem push_known {directory : MailboxDirectory} {target : FlowId} {mailbox : Mailbox}
    (known : directory.boxes target = some mailbox) (value : Value) :
    (directory.push layout target value).2 = some (mailbox.push layout (directory.next value)).2 ∧
      (directory.push layout target value).1.boxes target = some (mailbox.push layout (directory.next value)).1 := by
  rw [push]
  split
  · rename_i found
    rw [known] at found
    cases found
  · rename_i other found
    rw [known] at found
    cases found
    exact ⟨rfl, update_self _ _ _⟩

end MailboxDirectory

namespace RemoteFrameDedup

structure Settled (dedup : RemoteFrameDedup) : Prop where
  accepted : ∀ entry ∈ dedup.seen, entry.state = .accepted
  unique : (dedup.seen.map (·.key)).Nodup
  short : dedup.seen.length ≤ dedup.capacity

def keeping (dedup : RemoteFrameDedup) (entries : List DedupEntry) : RemoteFrameDedup := { dedup with seen := entries }

theorem evict_accepted_bound (capacity : Nat) (entries : List DedupEntry) :
    (evictAccepted capacity entries).length ≤ capacity ∨ ∃ front rest, evictAccepted capacity entries = front :: rest ∧
      front.state = .pending := by
  induction entries with
  | nil => exact Or.inl (Nat.zero_le _)
  | cons front rest ih =>
    rw [evictAccepted]
    by_cases full : rest.length + 1 > capacity
    · rw [if_pos full]
      cases state : front.state with
      | pending => exact Or.inr ⟨front, rest, rfl, state⟩
      | accepted => exact ih
    · rw [if_neg full]
      exact Or.inl (Nat.not_lt.mp full)

section Settled

variable {dedup : RemoteFrameDedup} {key : FrameKey} {kept : List DedupEntry}

theorem settled_reserve (settled : dedup.Settled) (absent : dedup.lookup key = none) :
    ∃ kept, kept <:+ dedup.seen ∧ kept.length + 1 ≤ dedup.capacity ∧ key ∉ kept.map (·.key) ∧
      dedup.reserve key = (dedup.keeping (kept ++ [⟨key, .pending⟩]), some (.fresh key)) := by
  obtain ⟨evicted, split, accepted⟩ := evict_accepted_split dedup.capacity (dedup.seen ++ [⟨key, .pending⟩])
  have last : evictAccepted dedup.capacity (dedup.seen ++ [⟨key, .pending⟩]) ≠ [] := by
    intro empty
    rw [empty, append_nil] at split
    have gone := accepted ⟨key, .pending⟩ (split ▸ mem_append_right _ mem_cons_self)
    cases gone
  obtain ⟨kept, newest, made⟩ := eq_nil_or_concat _ |>.resolve_left last
  rw [concat_eq_append] at made
  rw [made, ← append_assoc] at split
  obtain ⟨front, same⟩ := append_inj' split rfl
  cases same
  have suffix : kept <:+ dedup.seen := ⟨evicted, front.symm⟩
  refine ⟨kept, suffix, ?_, fun present => lookup_none absent (suffix.sublist.map _ |>.subset present), ?_⟩
  · rcases evict_accepted_bound dedup.capacity (dedup.seen ++ [⟨key, .pending⟩]) with within | ⟨first, rest, shape, pending⟩
    · rw [made, length_append] at within
      exact within
    · rw [made] at shape
      cases kept with
      | nil => exact dedup.positive
      | cons head tail =>
        cases shape
        have taken := settled.accepted first (suffix.subset mem_cons_self)
        rw [taken] at pending
        cases pending
  · rw [reserve, absent, made]
    rfl

theorem settled_keeping (settled : dedup.Settled) (suffix : kept <:+ dedup.seen) : (dedup.keeping kept).Settled :=
  ⟨fun entry member => settled.accepted entry (suffix.subset member), (suffix.sublist.map _).nodup settled.unique,
    Nat.le_trans suffix.length_le settled.short⟩

theorem settled_accept (settled : dedup.Settled) (suffix : kept <:+ dedup.seen)
    (room : kept.length + 1 ≤ dedup.capacity) (new : key ∉ kept.map (·.key)) :
    (dedup.keeping (kept ++ [⟨key, .accepted⟩])).Settled := by
  have before := settled_keeping settled suffix
  refine ⟨fun entry member => ?_, ?_, ?_⟩
  · rcases mem_append.mp member with old | last
    · exact before.accepted entry old
    · rw [mem_singleton.mp last]
  · change ((kept ++ [(⟨key, .accepted⟩ : DedupEntry)]).map (·.key)).Nodup
    rw [map_append]
    exact List.Nodup.append before.unique (nodup_singleton _) (by simpa using new)
  · change (kept ++ [(⟨key, .accepted⟩ : DedupEntry)]).length ≤ dedup.capacity
    rw [length_append]
    exact room

theorem mark_accepted_last (new : key ∉ kept.map (·.key)) :
    markAccepted key (kept ++ [⟨key, .pending⟩]) = kept ++ [⟨key, .accepted⟩] := by
  induction kept with
  | nil => simp [markAccepted]
  | cons entry rest ih =>
    rw [map_cons, mem_cons, not_or] at new
    rw [cons_append, markAccepted, if_neg (Ne.symm new.1), ih new.2, cons_append]

theorem commit_keeping (room : kept.length + 1 ≤ dedup.capacity) (new : key ∉ kept.map (·.key)) :
    (dedup.keeping (kept ++ [⟨key, .pending⟩])).commit key = dedup.keeping (kept ++ [⟨key, .accepted⟩]) := by
  have marked : evictAccepted dedup.capacity (markAccepted key (kept ++ [⟨key, .pending⟩])) = kept ++ [⟨key, .accepted⟩] := by
    rw [mark_accepted_last new]
    exact evict_accepted_of_room (by rw [length_append]; exact room)
  rw [commit, keeping, marked]
  rfl

theorem rollback_keeping (accepted : ∀ entry ∈ kept, entry.state = .accepted) :
    (dedup.keeping (kept ++ [⟨key, .pending⟩])).rollback key = dedup.keeping kept := by
  have filtered : (kept ++ [(⟨key, .pending⟩ : DedupEntry)]).filter
      (fun entry => !(entry.key = key && entry.state = .pending)) = kept := by
    rw [filter_append, filter_eq_self.mpr fun entry member => by simp [accepted entry member]]
    simp
  rw [rollback, keeping, filtered]
  rfl

end Settled

end RemoteFrameDedup

inductive DeliverAcceptError where
  | beforeAccept (error : RemoteFrameError)
  | afterAccept (error : RemoteFrameError)

-- The parts of Shared that deliver_frame uses, with a dedup window set.
structure FrameNode where
  dedup : RemoteFrameDedup
  registry : String → Option CapId
  caps : CapTable
  directory : MailboxDirectory

namespace FrameNode

-- resumes tells whether resume_or_fail could write the hop to the flow's register.
variable (layout : Layout) (resumes : FlowBox → Bool)

def handOffOutcome (flow : FlowBox) : Except DeliverAcceptError Unit :=
  match flow.lastReceiveDest with
  | some _ => if resumes flow then .ok () else .error (.afterAccept .unavailable)
  | none => .error (.afterAccept .unavailable)

def pushOutcome : Option (Except MailboxFullReason Delivery) → Except DeliverAcceptError Unit
  | none => .error (.beforeAccept .noSuchName)
  | some (.ok .queued) | some (.ok .queuedDropOldest) | some (.ok .droppedNewest) => .ok ()
  | some (.ok (.handoff flow)) => handOffOutcome resumes flow
  | some (.error full) => .error (.beforeAccept (.mailbox full))

def named (node : FrameNode) (name : String) : Option FlowId := do
  let cap ← node.registry name
  let entry ← node.caps.lookup cap
  entry.cap.target.flowId

def deliverFrameAfterDedup (node : FrameNode) (hop : OutboundHop) : FrameNode × Except DeliverAcceptError Unit :=
  match node.named hop.name with
  | none => (node, .error (.beforeAccept .noSuchName))
  | some target =>
    let (directory, result) := node.directory.push layout target (.message hop.message)
    ({ node with directory := directory }, pushOutcome resumes result)

def settle (dedup : RemoteFrameDedup) (key : FrameKey) : Except DeliverAcceptError Unit → RemoteFrameDedup
  | .ok () | .error (.afterAccept _) => dedup.commit key
  | .error (.beforeAccept _) => dedup.rollback key

def answer : Except DeliverAcceptError Unit → Except RemoteFrameError Unit
  | .ok () => .ok ()
  | .error (.beforeAccept e) | .error (.afterAccept e) => .error e

def key (hop : OutboundHop) : FrameKey := (hop.sender, hop.message.requestId)

-- None waits for a peer that holds the key.
def deliverFrame (node : FrameNode) (bytes : List UInt8) : Option (FrameNode × Except RemoteFrameError Unit) :=
  match decodeFrame bytes with
  | .error e => some (node, .error e)
  | .ok hop =>
    if hop.message.requestId = 0 then
      let (after, outcome) := node.deliverFrameAfterDedup layout resumes hop
      some (after, answer outcome)
    else
      match node.dedup.reserve (key hop) with
      | (_, none) => none
      | (_, some .duplicate) => some (node, .ok ())
      | (reserved, some (.fresh reservation)) =>
        let (after, outcome) := { node with dedup := reserved }.deliverFrameAfterDedup layout resumes hop
        some ({ after with dedup := settle after.dedup reservation outcome }, answer outcome)

section Outcome

variable {layout : Layout} {resumes : FlowBox → Bool} {node : FrameNode} {hop : OutboundHop}
  {target : FlowId} {after : FrameNode} {mailbox : Mailbox}

def Reached (before after : FrameNode) (hop : OutboundHop) : Prop :=
  ∃ target mailbox later, before.named hop.name = some target ∧ before.directory.boxes target = some mailbox ∧
    after.directory.boxes target = some later ∧
    (before.directory.next (.message hop.message) ∈ later.queue.hops ∨
      (mailbox.parked.isSome = true ∧ later.parked = none))

-- The mailbox of the name is open, drops the newest hop when it is full, has
-- no room for this one and no receiver that awaits it.
def DropsNewest (layout : Layout) (node : FrameNode) (hop : OutboundHop) : Prop :=
  ∃ target mailbox, node.named hop.name = some target ∧ node.directory.boxes target = some mailbox ∧
    mailbox.closed = false ∧ mailbox.config.overflow = .dropNewest ∧
    (Value.message hop.message).withinNestingLimit = true ∧
    mailbox.queue.crowded layout ((Value.message hop.message).memorySize layout) = true ∧
    mailbox.awaits (node.directory.next (.message hop.message)) = false

theorem push_drops_iff (layout : Layout) (mailbox : Mailbox) (hop : Hop) :
    (mailbox.push layout hop).2 = .ok .droppedNewest ↔ mailbox.closed = false ∧ mailbox.config.overflow = .dropNewest ∧
      hop.value.withinNestingLimit = true ∧ mailbox.queue.crowded layout (hop.value.memorySize layout) = true ∧
      mailbox.awaits hop = false := by
  by_cases nested : hop.value.withinNestingLimit = false
  · simp [Mailbox.push, nested]
  by_cases isClosed : mailbox.closed = true
  · simp [Mailbox.push, nested, isClosed]
  rcases Mailbox.push_open layout nested (Bool.eq_false_iff.mpr isClosed) with ⟨_, _, awaits, handed⟩ | ⟨awaits, enqueued⟩
  · simp [handed, awaits]
  · rw [enqueued, Mailbox.enqueueLocked]
    have outcome := MailboxQueue.enqueue_case layout mailbox.queue hop mailbox.config.overflow
    generalize mailbox.config.overflow = policy at outcome ⊢
    generalize mailbox.queue.enqueue layout hop policy = result at outcome
    cases outcome with
    | replace count => rcases Nat.eq_zero_or_pos count with rfl | evicted <;> simp_all
    | nested | room | reject | dropNewest | refuse => simp_all

def accepts : Except DeliverAcceptError Unit → Bool
  | .ok () | .error (.afterAccept _) => true
  | .error (.beforeAccept _) => false

theorem hand_off_accepts (resumes : FlowBox → Bool) (flow : FlowBox) : accepts (handOffOutcome resumes flow) = true := by
  rw [handOffOutcome]
  cases flow.lastReceiveDest with
  | none => rfl
  | some dest => cases resumes flow <;> rfl

theorem drops_newest_iff (known : node.named hop.name = some target) (box : node.directory.boxes target = some mailbox) :
    DropsNewest layout node hop ↔
      (mailbox.push layout (node.directory.next (.message hop.message))).2 = .ok .droppedNewest := by
  constructor
  · rintro ⟨other, found, same, here, drops⟩
    cases known.symm.trans same
    cases box.symm.trans here
    exact (push_drops_iff layout mailbox _).mpr drops
  · exact fun dropped => ⟨target, mailbox, known, box, (push_drops_iff layout mailbox _).mp dropped⟩

theorem reached_iff {later : Mailbox}
    (known : node.named hop.name = some target) (box : node.directory.boxes target = some mailbox)
    (left : after.directory.boxes target = some later) :
    Reached node after hop ↔
      node.directory.next (.message hop.message) ∈ later.queue.hops ∨
        (mailbox.parked.isSome = true ∧ later.parked = none) := by
  constructor
  · rintro ⟨other, found, last, same, here, there, arrived⟩
    cases known.symm.trans same
    cases box.symm.trans here
    cases left.symm.trans there
    exact arrived
  · exact fun arrived => ⟨target, mailbox, later, known, box, left, arrived⟩

theorem missed_of_front {later : Mailbox}
    (known : node.named hop.name = some target) (box : node.directory.boxes target = some mailbox)
    (left : after.directory.boxes target = some later) (front : later.queue.hops <:+ mailbox.queue.hops)
    (parked : later.parked = mailbox.parked) : ¬ Reached node after hop := by
  rw [reached_iff known box left]
  rintro (arrived | ⟨waiting, gone⟩)
  · exact absurd (node.directory.older target mailbox box _ (front.subset arrived)) (Nat.lt_irrefl _)
  · rw [← parked, gone] at waiting
    cases waiting

theorem unnamed_cases (nobody : ∀ target, node.named hop.name = some target →
    node.directory.boxes target = none) : ¬ Reached node after hop ∧ ¬ DropsNewest layout node hop := by
  refine ⟨fun ⟨target, _, _, known, box, _⟩ => ?_, fun ⟨target, _, known, box, _⟩ => ?_⟩
  · cases (nobody target known).symm.trans box
  · cases (nobody target known).symm.trans box

-- Acceptance is what the mailbox did with the hop, but for a dropped newest.
theorem after_dedup_cases (layout : Layout) (resumes : FlowBox → Bool) (node : FrameNode) (hop : OutboundHop) :
    (accepts (node.deliverFrameAfterDedup layout resumes hop).2 = true ∧
        (Reached node (node.deliverFrameAfterDedup layout resumes hop).1 hop ↔ ¬ DropsNewest layout node hop)) ∨
      (accepts (node.deliverFrameAfterDedup layout resumes hop).2 = false ∧
        ¬ Reached node (node.deliverFrameAfterDedup layout resumes hop).1 hop ∧ ¬ DropsNewest layout node hop) := by
  rw [deliverFrameAfterDedup]
  cases known : node.named hop.name with
  | none => exact Or.inr ⟨rfl, unnamed_cases fun target some_ => by rw [known] at some_; cases some_⟩
  | some target =>
    dsimp only
    cases box : node.directory.boxes target with
    | none =>
      rw [MailboxDirectory.push_unknown layout box]
      refine Or.inr ⟨rfl, unnamed_cases fun other some_ => ?_⟩
      cases known.symm.trans some_
      exact box
    | some mailbox =>
      obtain ⟨result, later⟩ := MailboxDirectory.push_known layout box (.message hop.message)
      rw [result, drops_newest_iff known box]
      rcases Mailbox.push_outcome layout mailbox (node.directory.next (.message hop.message)) with
        ⟨kept, delivery, _, hops, answered, queued⟩ | ⟨flow, parked, handed⟩ | ⟨front, parked, dropped | ⟨reason, refused⟩⟩
      · rw [answered, reached_iff known box later, hops]
        refine Or.inl ⟨?_, fun _ => ?_, fun _ => Or.inl (mem_append_right _ mem_cons_self)⟩
        · rcases queued with rfl | rfl <;> rfl
        · rcases queued with rfl | rfl <;> nofun
      · rw [reached_iff known box later, handed]
        refine Or.inl ⟨hand_off_accepts resumes flow, fun _ => nofun, fun _ => Or.inr ⟨?_, rfl⟩⟩
        rw [parked]
        rfl
      · rw [dropped]
        exact Or.inl ⟨rfl, fun arrived => absurd arrived (missed_of_front known box later front parked),
          fun kept => absurd rfl kept⟩
      · rw [refused]
        exact Or.inr ⟨rfl, missed_of_front known box later front parked, nofun⟩

end Outcome

section Calls

open RemoteFrameDedup (Settled settled_reserve settled_keeping settled_accept commit_keeping rollback_keeping lookup_of_mem
  lookup_some)

-- Calls one after another. Between them names, capabilities and mailboxes may
-- change in any way.
inductive FrameEvent where
  | call (bytes : List UInt8) (resumes : FlowBox → Bool)
  | environment (registry : String → Option CapId) (caps : CapTable) (directory : MailboxDirectory)

def next (layout : Layout) (node : FrameNode) : FrameEvent → Option FrameNode
  | .call bytes resumes => (node.deliverFrame layout resumes bytes).map Prod.fst
  | .environment registry caps directory =>
    some { node with registry := registry, caps := caps, directory := directory }

variable {layout : Layout} {resumes : FlowBox → Bool} {node : FrameNode} {hop : OutboundHop} {bytes : List UInt8}
  {reservation : FrameKey} {kept : List DedupEntry} {dedup : RemoteFrameDedup}

theorem after_dedup_dedup (layout : Layout) (resumes : FlowBox → Bool) (node : FrameNode) (hop : OutboundHop) :
    (node.deliverFrameAfterDedup layout resumes hop).1.dedup = node.dedup := by
  rw [deliverFrameAfterDedup]
  cases node.named hop.name with
  | none | some => rfl

theorem after_dedup_reserved (layout : Layout) (resumes : FlowBox → Bool) (node : FrameNode) (hop : OutboundHop)
    (reserved : RemoteFrameDedup) :
    { node with dedup := reserved }.deliverFrameAfterDedup layout resumes hop =
      ({ (node.deliverFrameAfterDedup layout resumes hop).1 with dedup := reserved },
        (node.deliverFrameAfterDedup layout resumes hop).2) := by
  have same : { node with dedup := reserved }.named hop.name = node.named hop.name := rfl
  rw [deliverFrameAfterDedup, deliverFrameAfterDedup, same]
  cases node.named hop.name with
  | none | some => rfl

theorem settle_keeping (accepted : ∀ entry ∈ kept, entry.state = .accepted) (room : kept.length + 1 ≤ dedup.capacity)
    (new : reservation ∉ kept.map (·.key)) (outcome : Except DeliverAcceptError Unit) :
    settle (dedup.keeping (kept ++ [⟨reservation, .pending⟩])) reservation outcome =
      dedup.keeping (kept ++ if accepts outcome then [⟨reservation, .accepted⟩] else []) := by
  rcases outcome with (e | e) | _
  · rw [settle, rollback_keeping accepted, accepts, if_neg (by decide), append_nil]
  · rw [settle, commit_keeping room new, accepts, if_pos rfl]
  · rw [settle, commit_keeping room new, accepts, if_pos rfl]

theorem deliver_frame_cases (settled : node.dedup.Settled) (decoded : decodeFrame bytes = .ok hop)
    (numbered : hop.message.requestId ≠ 0) :
    (node.dedup.lookup (key hop) = some .accepted ∧ node.deliverFrame layout resumes bytes = some (node, .ok ())) ∨
      (node.dedup.lookup (key hop) = none ∧ ∃ kept, kept <:+ node.dedup.seen ∧ kept.length + 1 ≤ node.dedup.capacity ∧
        key hop ∉ kept.map (·.key) ∧ ∃ answer, node.deliverFrame layout resumes bytes =
          some ({ (node.deliverFrameAfterDedup layout resumes hop).1 with
            dedup := node.dedup.keeping (kept ++
              if accepts (node.deliverFrameAfterDedup layout resumes hop).2 then [⟨key hop, .accepted⟩] else []) }, answer)) := by
  rw [deliverFrame, decoded]
  dsimp only
  rw [if_neg numbered]
  cases found : node.dedup.lookup (key hop) with
  | some state =>
    cases state with
    | accepted =>
      rw [RemoteFrameDedup.reserve, found]
      exact Or.inl ⟨rfl, rfl⟩
    | pending =>
      have taken := settled.accepted _ (lookup_some found)
      cases taken
  | none =>
    obtain ⟨kept, suffix, room, new, reserved⟩ := settled_reserve settled found
    refine Or.inr ⟨rfl, kept, suffix, room, new, answer (node.deliverFrameAfterDedup layout resumes hop).2, ?_⟩
    rw [reserved]
    dsimp only
    rw [after_dedup_reserved]
    dsimp only
    have accepted : ∀ entry ∈ kept, entry.state = .accepted := (settled_keeping settled suffix).accepted
    rw [settle_keeping accepted room new]

theorem call_settled (settled : node.dedup.Settled) {after : FrameNode} {answer : Except RemoteFrameError Unit}
    (done : node.deliverFrame layout resumes bytes = some (after, answer)) : after.dedup.Settled := by
  cases decoded : decodeFrame bytes with
  | error e =>
    rw [deliverFrame, decoded] at done
    cases done
    exact settled
  | ok hop =>
    by_cases unnumbered : hop.message.requestId = 0
    · rw [deliverFrame, decoded] at done
      dsimp only at done
      rw [if_pos unnumbered] at done
      cases done
      rw [after_dedup_dedup]
      exact settled
    · rcases deliver_frame_cases settled decoded unnumbered with
        ⟨_, duplicate⟩ | ⟨_, kept, suffix, room, new, said, delivered⟩
      · rw [duplicate] at done
        cases done
        exact settled
      · rw [delivered] at done
        cases done
        cases accepts (node.deliverFrameAfterDedup layout resumes hop).2 with
        | false =>
          rw [if_neg (by decide), append_nil]
          exact settled_keeping settled suffix
        | true =>
          rw [if_pos rfl]
          exact settled_accept settled suffix room new

def Idle (node : FrameNode) : Prop := node.dedup.Settled

theorem reached_idle {start : FrameNode} {capacity : Nat} (opened : start.dedup = .new capacity)
    (reached : Reach (next layout) (fun _ _ => True) start node) : node.Idle := by
  have initial : start.Idle := by
    rw [Idle, opened]
    exact ⟨fun _ none_ => absurd none_ not_mem_nil, nodup_nil, Nat.zero_le _⟩
  refine reach_invariant initial ?_ reached
  intro before event after settled _ stepped
  cases event with
  | call bytes resumes =>
    obtain ⟨⟨later, answer⟩, done, rfl⟩ := Option.map_eq_some_iff.mp stepped
    exact call_settled settled done
  | environment registry caps directory =>
    cases stepped
    exact settled

-- The call commits the key of a hop that arrived only, and a hop that did not
-- arrive is no duplicate when it comes again.
def Transactional (before after : FrameNode) (hop : OutboundHop) : Prop :=
  before.dedup.lookup (key hop) ≠ some .accepted →
    (after.dedup.lookup (key hop) = some .accepted → Reached before after hop) ∧
      (¬ Reached before after hop → (after.dedup.reserve (key hop)).2 ≠ some .duplicate)

theorem rolled_back_lookup (new : reservation ∉ kept.map (·.key)) : (dedup.keeping kept).lookup reservation = none := by
  cases found : (dedup.keeping kept).lookup reservation with
  | none => rfl
  | some state => exact absurd (mem_map.mpr ⟨_, lookup_some found, rfl⟩) new

theorem acceptance_transactional (layout : Layout) (capacity : Nat) (start node : FrameNode)
    (opened : start.dedup = .new capacity)
    (reached : Reach (next layout) (fun _ _ => True) start node) (resumes : FlowBox → Bool)
    (bytes : List UInt8) (hop : OutboundHop) (decoded : decodeFrame bytes = .ok hop)
    (numbered : hop.message.requestId ≠ 0) :
    ∃ after answer, node.deliverFrame layout resumes bytes = some (after, answer) ∧
      (Transactional node after hop ↔
        ¬ (node.dedup.lookup (key hop) ≠ some .accepted ∧ DropsNewest layout node hop)) := by
  have settled := reached_idle opened reached
  rcases deliver_frame_cases settled decoded numbered with ⟨duplicate, done⟩ | ⟨absent, kept, suffix, room, new, answer, done⟩
  · refine ⟨node, .ok (), done, fun _ ⟨fresh, _⟩ => absurd duplicate fresh, fun _ fresh => absurd duplicate fresh⟩
  · refine ⟨_, answer, done, ?_⟩
    have fresh : node.dedup.lookup (key hop) ≠ some .accepted := by
      rw [absent]
      nofun
    rcases after_dedup_cases layout resumes node hop with ⟨accepted, arrives⟩ | ⟨refused, missed, kept_⟩
    · rw [accepted, if_pos rfl]
      have found := @lookup_of_mem _ (settled_accept settled suffix room new).unique _ (mem_append_right _ mem_cons_self)
      constructor
      · rintro transactional ⟨_, drops⟩
        exact arrives.mp ((transactional fresh).1 found) drops
      · intro spared _
        have arrived := arrives.mpr fun drops => spared ⟨fresh, drops⟩
        exact ⟨fun _ => arrived, fun missed => absurd arrived missed⟩
    · rw [refused, if_neg (by decide), append_nil]
      have gone := @rolled_back_lookup _ kept node.dedup new
      refine ⟨fun _ ⟨_, drops⟩ => kept_ drops, fun _ _ => ⟨fun found => ?_, fun _ => ?_⟩⟩
      · rw [gone] at found
        cases found
      · rw [RemoteFrameDedup.reserve, gone]
        nofun

end Calls

def ping : OutboundHop := ⟨7, 2, "log", ⟨7, .NONE, 1, 0, .unit⟩⟩

theorem ping_decodes : decodeFrame (writeFrame ping) = .ok ping := by
  have sendable : Sendable ping := ⟨by decide, by decide, by decide, rfl, rfl⟩
  refine (decode_frame_ok _ _).mpr ⟨sendable, (sendable_fits_iff sendable).mpr ?_, rfl⟩
  exact ⟨_, trivial, forall_mem_nil _⟩

def logNode (mailbox : Mailbox) (older : ∀ hop ∈ mailbox.queue.hops, hop.serial < 1) : FrameNode where
  dedup := .new 4
  registry name := if name = "log" then some ⟨9⟩ else none
  caps := { CapTable.new with entries := [(⟨9⟩, ⟨0, ⟨.flow 3, .SEND, none, 0⟩, 0⟩)] }
  directory :=
    { boxes := fun id => if id = 3 then some mailbox else none
      arrivals := 1
      older := by
        intro id box here hop member
        split at here
        · cases here
          exact older hop member
        · cases here }

def emptyLog : FrameNode := logNode (.withConfig .DEFAULT) fun _ none_ => absurd none_ not_mem_nil

theorem empty_log_transactional :
    ∃ after answer, emptyLog.deliverFrame .word (fun _ => true) (writeFrame ping) = some (after, answer) ∧
      emptyLog.dedup.lookup (key ping) = none ∧ Transactional emptyLog after ping := by
  obtain ⟨after, answer, done, transactional⟩ := acceptance_transactional .word 4 emptyLog emptyLog rfl .here
    (fun _ => true) (writeFrame ping) ping ping_decodes (by decide)
  refine ⟨after, answer, done, rfl, transactional.mpr fun ⟨_, drops⟩ => ?_⟩
  have known : emptyLog.named ping.name = some 3 := rfl
  have box : emptyLog.directory.boxes 3 = some (.withConfig .DEFAULT) := rfl
  have queued : (Mailbox.push .word (.withConfig .DEFAULT) (emptyLog.directory.next (.message ping.message))).2 =
      .ok .queued := rfl
  have dropped := (drops_newest_iff known box).mp drops
  rw [queued] at dropped
  cases dropped

theorem one_slot_valid : 1 ≤ 1 ∧ 1 ≤ 2 ^ 20 := by decide

def fullMailbox : Mailbox :=
  { config := { MailboxConfig.DEFAULT with capacity := ⟨1, one_slot_valid⟩, overflow := .dropNewest }
    queue := ⟨[⟨.unit, 0⟩], 1, 64, 2 ^ 22⟩ }

def fullLog : FrameNode := logNode fullMailbox (forall_mem_singleton.mpr Nat.zero_lt_one)

theorem dropped_frame_committed :
    ∃ after, fullLog.deliverFrame .word (fun _ => true) (writeFrame ping) = some (after, .ok ()) ∧
      ¬ Reached fullLog after ping ∧ after.dedup.lookup (key ping) = some .accepted ∧
      (after.dedup.reserve (key ping)).2 = some .duplicate := by
  obtain ⟨after, later, done, box, hops, parked, accepted, duplicate⟩ : ∃ after later,
      fullLog.deliverFrame .word (fun _ => true) (writeFrame ping) = some (after, .ok ()) ∧
        after.directory.boxes 3 = some later ∧ later.queue.hops = fullMailbox.queue.hops ∧ later.parked = none ∧
        after.dedup.lookup (key ping) = some .accepted ∧ (after.dedup.reserve (key ping)).2 = some .duplicate := by
    rw [deliverFrame, ping_decodes]
    exact ⟨_, _, rfl, rfl, rfl, rfl, rfl, rfl⟩
  have known : fullLog.named ping.name = some 3 := rfl
  have before : fullLog.directory.boxes 3 = some fullMailbox := rfl
  have missed : ¬ Reached fullLog after ping := by
    refine missed_of_front known before box ?_ parked
    simp only [hops, suffix_rfl]
  exact ⟨after, done, missed, accepted, duplicate⟩

end FrameNode

end Byteflow
